import SchemaTypes.Proofs.Building.Collapse
import SchemaTypes.Proofs.Types.Shifts
/-!
# The same work twice

A node is built in one session, and then again in a session that remembers the first (`Session.Recalls`): what has
been handed out is still there under its name, and what was known under a signature still is.  The two runs are looked
at side by side.  The second adds what the first added, by a fixed offset later (`Graph.Repeats`), and refers to the
very types that the first referred to, since it finds them under their signatures.

`Pairing.Twins p known x y Q`: from sessions that repeat each other, success of `x` and of `y` ends in such sessions
again, with results as `Q` says.  `known` are types that both runs have come to refer to.  Whether a type is found
depends on what the first run has left behind at its end, which is the past of the second, so this is a statement about
first runs that the past recalls; `Twins` carries a unary part from which that follows for every part of a run.
-/
namespace SchemaTypes

namespace Session

variable {origin s s' later third : Session} {type : TypeId} {text : String}

/-- The type is known under some signature. -/
def Registers (session : Session) (type : TypeId) : Prop := ∃ text, (text, type) ∈ session.signatures

/-- What is known of types in one session is known in a later one. -/
structure Recalls (session later : Session) : Prop where
  grows : session.graph.Grows later.graph
  signatures : session.signatures <+: later.signatures
  names : ∀ id, session.graph.HasType id → (later.graph.entry id).name = (session.graph.entry id).name

theorem Recalls.refl (s : Session) : Recalls s s := ⟨.refl _, List.prefix_refl _, fun _ _ => rfl⟩

theorem Recalls.trans (h : Recalls s later) (h' : Recalls later third) : Recalls s third where
  grows := h.grows.trans h'.grows
  signatures := h.signatures.trans h'.signatures
  names id hid := (h'.names id (hid.grows h.grows)).trans (h.names id hid)

theorem Recalls.registers (h : Recalls s later) (htype : s.Registers type) : later.Registers type := by
  obtain ⟨text, hmem⟩ := htype
  exact ⟨text, h.signatures.subset hmem⟩

theorem Recalls.lookup (h : Recalls s later) (hlookup : s.signatures.lookup text = some type) :
    later.signatures.lookup text = some type := by
  obtain ⟨more, hmore⟩ := h.signatures
  rw [← hmore, List.lookup_append, hlookup]
  rfl

theorem recalls_modifyType (s : Session) (id : TypeId) {f : ObjectType → ObjectType}
    (hf : ∀ entry, (f entry).name = entry.name) : Recalls s (s.withGraph (s.graph.modifyType id f)) := by
  refine ⟨grows_modifyType _ _ _, List.prefix_refl _, fun other _ => ?_⟩
  rw [withGraph, entry_modifyType_eq]
  split
  · exact hf _
  · rfl

theorem Concludes.recalls {id target : TypeId} (h : s.Concludes id text target s') : Recalls s s' := by
  cases h with
  | kept => exact recalls_modifyType s id fun _ => rfl
  | first =>
    have hsigned := recalls_modifyType s id (f := fun entry => { entry with signature := some text }) fun _ => rfl
    exact ⟨hsigned.grows, List.prefix_append _ _, hsigned.names⟩
  | @duplicate existing =>
    have hredirected := recalls_modifyType s id (f := fun entry =>
      { entry with signature := some text, redirect := some (s.graph.canonical existing) }) fun _ => rfl
    exact ⟨hredirected.grows, List.prefix_refl _, hredirected.names⟩

/-- Every write of a call leaves what is known of types as it is. -/
theorem Move.recalls (h : Move origin s s') : Recalls s s' := by
  cases h with
  | notify => exact ⟨.refl _, List.prefix_refl _, fun _ _ => rfl⟩
  | reserve =>
    refine ⟨grows_reserve _ _ _ _, List.prefix_refl _, fun id hid => ?_⟩
    exact congrArg ObjectType.name (entry_reserve_of_lt _ _ _ _ hid)
  | change _ hf => exact recalls_modifyType s _ hf.name
  | finish _ _ hrun => exact (concludes_finish hrun).recalls
  | add => exact ⟨grows_addProperty _ _, List.prefix_refl _, fun _ _ => rfl⟩
  | amend => exact ⟨grows_modifyProperty _ _ _, List.prefix_refl _, fun _ _ => rfl⟩
  | define => exact ⟨.refl _, List.prefix_refl _, fun _ _ => rfl⟩
  | wait => exact ⟨.refl _, List.prefix_refl _, fun _ _ => rfl⟩

theorem Moves.recalls (h : Moves origin s s') : Recalls s s' :=
  h.keeps (P := Recalls s) (fun _ _ hmove hm => hm.trans hmove.recalls) (.refl s)

theorem Moves.collapsed (h : Moves origin s s') (hs : s.Collapsed) : s'.Collapsed :=
  h.keeps (P := Collapsed) (fun _ _ hmove hm => hmove.collapsed hm) hs

/-! ## Sessions of a run -/

/-- A write of some call, or a document that is stored. -/
inductive Happens : Session → Session → Prop
  | write {s s' : Session} : Move {} s s' → Happens s s'
  | store {s : Session} (source : Source) (value : Json) : Happens s (s.register source value)

/-- The one session comes before the other in some run, be it in the middle of a call. -/
abbrev Precedes : Session → Session → Prop := Relation.ReflTransGen Happens

theorem Precedes.recalls (h : Precedes s s') : s.Recalls s' := by
  induction h with
  | refl => exact .refl s
  | tail _ hhappens ih =>
    cases hhappens with
    | write hmove => exact ih.trans hmove.recalls
    | store => exact ih.trans ⟨.refl _, List.prefix_refl _, fun _ _ => rfl⟩

theorem Precedes.collapsed (h : Precedes s s') (hs : s.Collapsed) : s'.Collapsed := by
  induction h with
  | refl => exact hs
  | tail _ hhappens ih =>
    cases hhappens with
    | write hmove => exact hmove.collapsed ih
    | store => exact ih.congr rfl rfl rfl fun _ => ⟨rfl, rfl, rfl, rfl⟩

theorem Moves.precedes (h : Moves origin s s') : Precedes s s' := by
  refine Relation.ReflTransGen.mono (fun _ _ hmove => .write (hmove.rebase ⟨Nat.zero_le _, Nat.zero_le _⟩ ?_)) _ _ h
  rintro _ _ ⟨_, hpending⟩
  cases hpending

/-! ## What is known -/

theorem Registered.hasType_of_registers (h : s.Registered) (htype : s.Registers type) : s.graph.HasType type := by
  obtain ⟨text, hmem⟩ := htype
  refine lt_of_signature fun hnone => ?_
  rw [(h.signatures text type hmem).1] at hnone
  cases hnone

/-- What is known stands for itself. -/
theorem Registered.canonical_of_registers (h : s.Registered) (htype : s.Registers type) :
    s.graph.canonical type = type := by
  obtain ⟨text, hmem⟩ := htype
  exact Graph.follow_eq_self (h.signatures text type hmem).2 _

/-- What is known is not being filled in. -/
theorem Registered.ne_of_unfinished (h : s.Registered) (htype : s.Registers type) {other : TypeId}
    (hunfinished : s.Unfinished other) : type ≠ other := by
  rintro rfl
  obtain ⟨text, hmem⟩ := htype
  exact nomatch hunfinished.signature.symm.trans (h.signatures text type hmem).1

/-- A known type goes by the same class name later. -/
theorem Recalls.className_eq (h : Recalls s later) (hs : s.Registered) (hlater : later.Registered)
    (htype : s.Registers type) : later.graph.className type = s.graph.className type := by
  unfold Graph.className Graph.type
  rw [hs.canonical_of_registers htype, hlater.canonical_of_registers (h.registers htype),
    h.names type (hs.hasType_of_registers htype)]

end Session

namespace Building

open Build

/-- What is fixed for two runs side by side: the sessions they begin in, the past of the second one, in which the first
one has come to its end, and the types they are filling in. -/
structure Pairing where
  config : Config
  first : Session
  second : Session
  past : Session
  filling : List (TypeId × TypeId)
  grows : first.graph.Grows second.graph

namespace Pairing

def floor (p : Pairing) : Nat := p.first.graph.properties.size

def offset (p : Pairing) : Nat := p.second.graph.properties.size - p.first.graph.properties.size

/-- The course of the first run, watched from a session on. -/
def firstCourse (p : Pairing) (start : Session) : Course :=
  { config := p.config, origin := p.first, filling := p.filling.map Prod.fst, start }

def secondCourse (p : Pairing) (start : Session) : Course :=
  { config := p.config, origin := p.second, filling := p.filling.map Prod.snd, start }

def opening (p : Pairing) (pair : TypeId × TypeId) : Pairing := { p with filling := pair :: p.filling }

/-- What each run keeps to on its own, and what the second one remembers. -/
structure Stands (p : Pairing) (s₁ s₂ : Session) : Prop where
  first : (p.firstCourse s₁).Passes s₁
  second : (p.secondCourse s₂).Passes s₂
  collapsed₁ : s₁.Collapsed
  collapsed₂ : s₂.Collapsed
  recalls : p.past.Recalls s₂

/-- The second session repeats the first, and whatever the first has come to refer to is known in it. -/
structure Matches (p : Pairing) (known : List TypeId) (s₁ s₂ : Session) : Prop where
  repeats : s₁.graph.Repeats p.floor p.offset s₂.graph
  types : ∀ id : PropertyId, p.floor ≤ id.index → ∀ type ∈ (s₁.graph.property id).types, s₁.Registers type
  known : ∀ type ∈ known, s₁.Registers type
  filling : ∀ pair ∈ p.filling, (s₁.graph.entry pair.1).Repeats p.floor p.offset (s₂.graph.entry pair.2)
  nested : ∀ pair ∈ p.filling, (s₁.graph.entry pair.1).isRoot = false ∧ (s₂.graph.entry pair.2).isRoot = false
  paired : ∀ x ∈ p.filling, ∀ y ∈ p.filling, x.1 = y.1 ↔ x.2 = y.2

/-- One id repeats the other. -/
def Ids (p : Pairing) (a b : PropertyId) : Prop := b = a.shifted p.offset ∧ p.floor ≤ a.index

/-- A property that is not in the graph yet, and its repetition. -/
structure Drafts (p : Pairing) (known : List TypeId) (a b : Property) : Prop where
  eq : b = a.shifted p.offset
  children : ∀ child ∈ a.validators.children, p.floor ≤ child.index
  types : ∀ type ∈ a.types, type ∈ known

variable {α β γ δ : Type}

/-- Two computations, one for each run. -/
structure Twins (p : Pairing) (known : List TypeId) (x : Build α) (y : Build β) (Q : List TypeId → α → β → Prop) :
    Prop where
  first : ∀ start, (p.firstCourse start).Keeps x fun a => ∃ known', known ⊆ known' ∧ ∃ b, Q known' a b
  second : ∀ start, (p.secondCourse start).Keeps y fun b => ∃ known', known ⊆ known' ∧ ∃ a, Q known' a b
  both : ∀ s₁ s₂ a b s₁' s₂', p.Stands s₁ s₂ → p.Matches known s₁ s₂ → x.Runs p.config s₁ a s₁' →
    y.Runs p.config s₂ b s₂' → s₁'.Recalls p.past → ∃ known', known ⊆ known' ∧ p.Matches known' s₁' s₂' ∧ Q known' a b

variable {p : Pairing} {known : List TypeId} {x : Build α} {y : Build β} {f : α → Build γ} {g : β → Build δ}
  {Q : List TypeId → α → β → Prop} {R : List TypeId → γ → δ → Prop} {s₁ s₂ s₁' s₂' : Session} {a : α} {b : β}

/-- What each run does on its own account, if nothing is said of results. -/
theorem keeps_alone {course : Course} {q : α → Prop} (h : course.Keeps x q) :
    course.Keeps x fun _ => ∃ known', known ⊆ known' ∧ ∃ _ : α, True :=
  h.imp fun a _ => ⟨known, List.Subset.refl _, a, trivial⟩

/-- A course is as good from any session that it passes. -/
theorem restart {course : Course} {s : Session} (h : course.Passes s) : { course with start := s }.Passes s :=
  ⟨.refl, h.since, h.filling⟩

theorem Stands.passes₁ (h : p.Stands s₁ s₂) {q : α → Prop} (hx : ∀ start, (p.firstCourse start).Keeps x q)
    (hrun : x.Runs p.config s₁ a s₁') : (p.firstCourse s₁).Passes s₁' ∧ q a :=
  (hx s₁ s₁ h.first).1 a s₁' hrun

theorem Stands.passes₂ (h : p.Stands s₁ s₂) {q : β → Prop} (hy : ∀ start, (p.secondCourse start).Keeps y q)
    (hrun : y.Runs p.config s₂ b s₂') : (p.secondCourse s₂).Passes s₂' ∧ q b :=
  (hy s₂ s₂ h.second).1 b s₂' hrun

theorem Stands.next (h : p.Stands s₁ s₂) (h₁ : (p.firstCourse s₁).Passes s₁') (h₂ : (p.secondCourse s₂).Passes s₂') :
    p.Stands s₁' s₂' :=
  ⟨restart h₁, restart h₂, h₁.moves.collapsed h.collapsed₁, h₂.moves.collapsed h.collapsed₂,
    h.recalls.trans h₂.moves.recalls⟩

theorem Twins.stands (hx : p.Twins known x y Q) (h : p.Stands s₁ s₂) (hrun : x.Runs p.config s₁ a s₁')
    (hrun' : y.Runs p.config s₂ b s₂') : p.Stands s₁' s₂' :=
  h.next (h.passes₁ hx.first hrun).1 (h.passes₂ hx.second hrun').1

/-! ## Sequences -/

theorem twins_pure (h : Q known a b) : p.Twins known (pure a) (pure b) Q where
  first _ := keeps_pure ⟨known, List.Subset.refl _, b, h⟩
  second _ := keeps_pure ⟨known, List.Subset.refl _, a, h⟩
  both s₁ s₂ a' b' s₁' s₂' _ hmatches hrun hrun' _ := by
    obtain ⟨rfl, rfl⟩ := runs_pure.1 hrun
    obtain ⟨rfl, rfl⟩ := runs_pure.1 hrun'
    exact ⟨known, List.Subset.refl _, hmatches, h⟩

theorem Twins.imp {Q' : List TypeId → α → β → Prop} (h : p.Twins known x y Q)
    (hQQ' : ∀ known' a b, known ⊆ known' → Q known' a b → Q' known' a b) : p.Twins known x y Q' where
  first start := (h.first start).imp fun a ⟨known', hsub, b, hQ⟩ => ⟨known', hsub, b, hQQ' known' a b hsub hQ⟩
  second start := (h.second start).imp fun b ⟨known', hsub, a, hQ⟩ => ⟨known', hsub, a, hQQ' known' a b hsub hQ⟩
  both s₁ s₂ a b s₁' s₂' hstands hmatches hrun hrun' hrecalls := by
    obtain ⟨known', hsub, hmatches', hQ⟩ := h.both s₁ s₂ a b s₁' s₂' hstands hmatches hrun hrun' hrecalls
    exact ⟨known', hsub, hmatches', hQQ' known' a b hsub hQ⟩

theorem Matches.forget {known' : List TypeId} (h : p.Matches known' s₁ s₂) (hsub : known ⊆ known') :
    p.Matches known s₁ s₂ :=
  ⟨h.repeats, h.types, fun type htype => h.known type (hsub htype), h.filling, h.nested, h.paired⟩

/-- What comes after may use the types that the first part has come to refer to. -/
theorem Twins.learn (hx : p.Twins known x y Q)
    (hf : ∀ known' a b, known ⊆ known' → Q known' a b → p.Twins known' (f a) (g b) R) :
    p.Twins known (x >>= f) (y >>= g) R where
  first start := (hx.first start).bind fun a ⟨known', hsub, b, hQ⟩ =>
    ((hf known' a b hsub hQ).first start).imp fun c ⟨later, hsub', hR⟩ => ⟨later, List.Subset.trans hsub hsub', hR⟩
  second start := (hx.second start).bind fun b ⟨known', hsub, a, hQ⟩ =>
    ((hf known' a b hsub hQ).second start).imp fun c ⟨later, hsub', hR⟩ => ⟨later, List.Subset.trans hsub hsub', hR⟩
  both s₁ s₂ c d s₁' s₂' hstands hmatches hrun hrun' hrecalls := by
    obtain ⟨a, m₁, hxrun, hfrun⟩ := runs_bind.1 hrun
    obtain ⟨b, m₂, hyrun, hgrun⟩ := runs_bind.1 hrun'
    have hmiddle := hx.stands hstands hxrun hyrun
    -- What the first run has done so far is recalled, since nothing that comes after takes it back.
    obtain ⟨_, known', hsub, b', hQ'⟩ := hstands.passes₁ hx.first hxrun
    have hlater := (hmiddle.passes₁ (hf known' a b' hsub hQ').first hfrun).1.moves.recalls
    obtain ⟨known', hsub, hmatches', hQ⟩ :=
      hx.both s₁ s₂ a b m₁ m₂ hstands hmatches hxrun hyrun (hlater.trans hrecalls)
    obtain ⟨last, hsub', hlast⟩ :=
      (hf known' a b hsub hQ).both m₁ m₂ c d s₁' s₂' hmiddle hmatches' hfrun hgrun hrecalls
    exact ⟨last, List.Subset.trans hsub hsub', hlast⟩

/-- What a computation has come to refer to may be left out of account. -/
theorem Twins.fix {q : α → β → Prop} (h : p.Twins known x y fun _ => q) :
    p.Twins known x y fun known' a b => known' = known ∧ q a b where
  first start := (h.first start).imp fun a ⟨_, _, b, hq⟩ => ⟨known, List.Subset.refl _, b, rfl, hq⟩
  second start := (h.second start).imp fun b ⟨_, _, a, hq⟩ => ⟨known, List.Subset.refl _, a, rfl, hq⟩
  both s₁ s₂ a b s₁' s₂' hstands hmatches hrun hrun' hrecalls := by
    obtain ⟨known', hsub, hmatches', hq⟩ := h.both s₁ s₂ a b s₁' s₂' hstands hmatches hrun hrun' hrecalls
    exact ⟨known, List.Subset.refl _, hmatches'.forget hsub, rfl, hq⟩

theorem Twins.bind {q : α → β → Prop} (hx : p.Twins known x y fun _ => q)
    (hf : ∀ a b, q a b → p.Twins known (f a) (g b) R) : p.Twins known (x >>= f) (y >>= g) R :=
  hx.fix.learn fun _ a b _ hq => hq.1 ▸ hf a b hq.2

/-- First parts whose results do not matter. -/
theorem Twins.andThen (hx : p.Twins known x y Q) (hf : ∀ a b, p.Twins known (f a) (g b) R) :
    p.Twins known (x >>= f) (y >>= g) R :=
  Twins.bind (q := fun _ _ => True) (hx.imp fun _ _ _ _ _ => trivial) fun a b _ => hf a b

/-- First parts that read the same. -/
theorem Twins.read {z z' : Build α} {g : α → Build δ} (hz : p.Twins known z z' fun _ => Eq)
    (hf : ∀ a, p.Twins known (f a) (g a) R) : p.Twins known (z >>= f) (z' >>= g) R :=
  hz.bind fun a _ heq => heq ▸ hf a

theorem twins_refuse {fault fault' : SchemaFault} : p.Twins known (refuse fault) (refuse fault') Q :=
  ⟨fun _ => keeps_refuse, fun _ => keeps_refuse, fun _ _ _ _ _ _ _ _ hrun => absurd hrun not_runs_refuse⟩

theorem twins_malformed {name name' reason reason' : String} :
    p.Twins known (malformed name reason) (malformed name' reason') Q := twins_refuse

/-- What does not look at the session is the same for both runs. -/
theorem twins_detached {z : Build α} (h : Detached z) : p.Twins known z z fun _ => Eq where
  first _ := h.keeps.imp fun a _ => ⟨known, List.Subset.refl _, a, rfl⟩
  second _ := h.keeps.imp fun a _ => ⟨known, List.Subset.refl _, a, rfl⟩
  both s₁ s₂ a b s₁' s₂' _ hmatches hrun hrun' _ := by
    obtain rfl := h.eq_of_runs hrun
    obtain rfl := h.eq_of_runs hrun'
    exact ⟨known, List.Subset.refl _, hmatches, h.unique hrun hrun'⟩

/-! ## Loops -/

section

variable {ε : Type} {r : α → β → Prop}

theorem twins_mapM {f : ε → Build α} {g : ε → Build β} : ∀ {l : List ε},
    (∀ e ∈ l, p.Twins known (f e) (g e) fun _ => r) → p.Twins known (l.mapM f) (l.mapM g) fun _ => List.Forall₂ r
  | [], _ => by
    rw [List.mapM_nil, List.mapM_nil]
    exact twins_pure .nil
  | e :: l, h => by
    rw [List.mapM_cons, List.mapM_cons]
    refine (h e List.mem_cons_self).bind fun a b hab => ?_
    refine (twins_mapM fun x hx => h x (List.mem_cons_of_mem _ hx)).bind fun as bs habs => ?_
    exact twins_pure (.cons hab habs)

theorem twins_foldlM {f : α → ε → Build α} {g : β → ε → Build β} : ∀ {l : List ε} {a : α} {b : β}, r a b →
    (∀ e ∈ l, ∀ a b, r a b → p.Twins known (f a e) (g b e) fun _ => r) →
    p.Twins known (l.foldlM f a) (l.foldlM g b) fun _ => r
  | [], _, _, hab, _ => by
    rw [List.foldlM_nil, List.foldlM_nil]
    exact twins_pure hab
  | e :: l, a, b, hab, h => by
    rw [List.foldlM_cons, List.foldlM_cons]
    refine (h e List.mem_cons_self a b hab).bind fun a b hab => ?_
    exact twins_foldlM hab fun x hx => h x (List.mem_cons_of_mem _ hx)

theorem twins_forM {f g : ε → Build Unit} : ∀ {l : List ε},
    (∀ e ∈ l, p.Twins known (f e) (g e) fun _ _ _ => True) → p.Twins known (l.forM f) (l.forM g) fun _ _ _ => True
  | [], _ => twins_pure trivial
  | e :: l, h => by
    change p.Twins known (f e >>= fun _ => l.forM f) (g e >>= fun _ => l.forM g) _
    exact (h e List.mem_cons_self).andThen fun _ _ => twins_forM fun x hx => h x (List.mem_cons_of_mem _ hx)

/-- A loop without a state of its own, which goes through the whole list. -/
theorem twins_forIn {f g : ε → PUnit → Build (ForInStep PUnit)} : ∀ {l : List ε},
    (∀ e ∈ l, p.Twins known (f e ⟨⟩) (g e ⟨⟩) fun _ a b => a = .yield ⟨⟩ ∧ b = .yield ⟨⟩) →
    p.Twins known (forIn l ⟨⟩ f) (forIn l ⟨⟩ g) fun _ _ _ => True
  | [], _ => by
    rw [List.forIn_nil, List.forIn_nil]
    exact twins_pure trivial
  | e :: l, h => by
    rw [List.forIn_cons, List.forIn_cons]
    refine (h e List.mem_cons_self).bind fun a b hab => ?_
    rw [hab.1, hab.2]
    exact twins_forIn fun x hx => h x (List.mem_cons_of_mem _ hx)

theorem twins_option_mapM {f : ε → Build α} {g : ε → Build β} {o : Option ε}
    (h : ∀ e ∈ o, p.Twins known (f e) (g e) fun _ => r) :
    p.Twins known (o.mapM f) (o.mapM g) fun _ => Option.Rel r := by
  cases o with
  | none => exact twins_pure .none
  | some e => exact (h e rfl).bind fun a b hab => twins_pure (.some hab)

end

end Pairing
end Building
end SchemaTypes

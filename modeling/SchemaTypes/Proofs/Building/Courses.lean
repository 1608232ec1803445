import SchemaTypes.Proofs.Building.Detached
import SchemaTypes.Proofs.Building.Moves
import SchemaTypes.Proofs.Building.Fills
/-!
# The course of a call

`Build.Meets config P x Q H`: from any session in which `P` holds, success of `x` ends as `Q` says and a halt ends as
`H` says.  What a call keeps all along is an invariant of both outcomes (`Build.Keeps`), and one invariant is enough
for what follows: that the session is on the course of the call (`Course.Passes`).  It has got there by writes that
leave the origin alone, and the types that are being filled in are still unfinished.

Contracts here say of a result at most that it is new, which no later write changes.
-/
namespace SchemaTypes

namespace Build

def Meets {α : Type} (config : Config) (P : Session → Prop) (x : Build α) (Q : α → Session → Prop)
    (H : Session → Prop) : Prop :=
  ∀ s, P s → (∀ a s', x.Runs config s a s' → Q a s') ∧ ∀ halt s', x.Halts config s halt s' → H s'

/-- Both outcomes keep the invariant, and success has a result as said. -/
def Keeps {α : Type} (config : Config) (I : Session → Prop) (x : Build α) (q : α → Prop) : Prop :=
  Meets config I x (fun a s => I s ∧ q a) I

variable {α β : Type} {config : Config} {P H I : Session → Prop} {Q : α → Session → Prop} {R : β → Session → Prop}
  {q : α → Prop} {r : β → Prop} {x : Build α} {f : α → Build β}

theorem Meets.imp {Q' : α → Session → Prop} (h : Meets config P x Q H) (hQQ' : ∀ a s, Q a s → Q' a s) :
    Meets config P x Q' H := fun s hs => ⟨fun a s' hrun => hQQ' a s' ((h s hs).1 a s' hrun), (h s hs).2⟩

theorem Meets.weaken {H' : Session → Prop} (h : Meets config P x Q H) (hHH' : ∀ s, H s → H' s) :
    Meets config P x Q H' := fun s hs => ⟨(h s hs).1, fun halt s' hhalts => hHH' s' ((h s hs).2 halt s' hhalts)⟩

theorem Meets.bind (hx : Meets config P x Q H) (hf : ∀ a, Meets config (Q a) (f a) R H) :
    Meets config P (x >>= f) R H := by
  refine fun s hs => ⟨fun b s' hrun => ?_, fun halt s' hhalts => ?_⟩
  · obtain ⟨a, m, hxrun, hfrun⟩ := runs_bind.1 hrun
    exact (hf a m ((hx s hs).1 a m hxrun)).1 b s' hfrun
  · rcases halts_bind.1 hhalts with hxhalts | ⟨a, m, hxrun, hfhalts⟩
    · exact (hx s hs).2 halt s' hxhalts
    · exact (hf a m ((hx s hs).1 a m hxrun)).2 halt s' hfhalts

theorem meets_of_runs {v : α} {t : Session → Session} (hx : ∀ s, x.Runs config s v (t s))
    (hQ : ∀ s, P s → Q v (t s)) : Meets config P x Q H := by
  refine fun s hs => ⟨fun a s' hrun => ?_, fun halt s' hhalts => absurd hhalts (hx s).not_halts⟩
  obtain ⟨rfl, rfl⟩ := hrun.unique (hx s)
  exact hQ s hs

theorem meets_pure {a : α} (hQ : ∀ s, P s → Q a s) : Meets config P (pure a) Q H :=
  meets_of_runs (fun _ => runs_pure.2 ⟨rfl, rfl⟩) hQ

theorem keeps_pure {a : α} (h : q a) : Keeps config I (pure a) q := meets_pure fun _ hs => ⟨hs, h⟩

theorem keeps_throw {halt : Halt} : Keeps config I (throw halt : Build α) q := by
  refine fun s hs => ⟨fun a s' hrun => absurd hrun not_runs_throw, fun other s' hhalts => ?_⟩
  obtain ⟨_, rfl⟩ := halts_throw.1 hhalts
  exact hs

theorem keeps_refuse {fault : SchemaFault} : Keeps config I (refuse fault) q := keeps_throw

theorem keeps_malformed {property reason : String} : Keeps config I (malformed property reason) q := keeps_refuse

theorem Keeps.imp {q' : α → Prop} (h : Keeps config I x q) (hqq' : ∀ a, q a → q' a) : Keeps config I x q' :=
  Meets.imp h fun a _ ha => ⟨ha.1, hqq' a ha.2⟩

/-- What is kept holds after success, where nothing is asked of a halt. -/
theorem Keeps.meets (h : Keeps config I x q) : Meets config I x (fun _ => I) fun _ => True :=
  Meets.imp (Meets.weaken h fun _ _ => trivial) fun _ _ hs => hs.1

theorem Keeps.bind (hx : Keeps config I x q) (hf : ∀ a, q a → Keeps config I (f a) r) :
    Keeps config I (x >>= f) r := Meets.bind hx fun a s hs => hf a hs.2 s hs.1

/-- A first part whose result does not matter. -/
theorem Keeps.andThen (hx : Keeps config I x q) (hf : ∀ a, Keeps config I (f a) r) : Keeps config I (x >>= f) r :=
  hx.bind fun a _ => hf a

theorem keeps_refuse_bind {fault : SchemaFault} : Keeps config I (refuse fault >>= f) r :=
  Keeps.bind (q := fun _ => False) keeps_refuse fun _ hfalse => hfalse.elim

theorem Detached.keeps (h : Detached x) : Keeps config I x fun _ => True := by
  refine fun s hs => ⟨fun a s' hrun => ?_, fun halt s' hhalts => ?_⟩
  · exact h.eq_of_runs hrun ▸ ⟨hs, trivial⟩
  · exact h.eq_of_halts hhalts ▸ hs

/-- What comes after looking at the session is about that session. -/
theorem meets_get {f : Session → Build α} (hf : ∀ t, P t → Meets config (· = t) (f t) Q H) :
    Meets config P (get >>= f) Q H := fun s hs =>
  ⟨fun a s' hrun => (hf s hs s rfl).1 a s' (runs_get_bind.1 hrun),
    fun halt s' hhalts => (hf s hs s rfl).2 halt s' (halts_get_bind.1 hhalts)⟩

theorem keeps_get : Keeps config I get fun _ => True :=
  fun _ hs => ⟨fun _ _ hrun => (runs_get.1 hrun).2 ▸ ⟨hs, trivial⟩,
    fun _ _ hhalts => absurd hhalts (Runs.not_halts (runs_get.2 ⟨rfl, rfl⟩))⟩

theorem keeps_graph : Keeps config I Build.graph fun _ => True := keeps_get.andThen fun _ => keeps_pure trivial

/-! ## Loops -/

theorem keeps_mapM {f : α → Build β} : ∀ {l : List α}, (∀ a ∈ l, Keeps config I (f a) r) →
    Keeps config I (l.mapM f) fun bs => ∀ b ∈ bs, r b
  | [], _ => by
    rw [List.mapM_nil]
    exact keeps_pure fun _ hb => absurd hb List.not_mem_nil
  | a :: l, h => by
    rw [List.mapM_cons]
    refine (h a List.mem_cons_self).bind fun b hb => ?_
    refine (keeps_mapM fun x hx => h x (List.mem_cons_of_mem _ hx)).bind fun bs hbs => ?_
    exact keeps_pure (List.forall_mem_cons.2 ⟨hb, hbs⟩)

theorem keeps_foldlM {f : β → α → Build β} (h : ∀ b a, r b → Keeps config I (f b a) r) :
    ∀ {l : List α} {b : β}, r b → Keeps config I (l.foldlM f b) r
  | [], b, hb => by
    rw [List.foldlM_nil]
    exact keeps_pure hb
  | a :: l, b, hb => by
    rw [List.foldlM_cons]
    exact (h b a hb).bind fun _ => keeps_foldlM h

theorem keeps_forM {f : α → Build Unit} : ∀ {l : List α}, (∀ a ∈ l, Keeps config I (f a) fun _ => True) →
    Keeps config I (l.forM f) fun _ => True
  | [], _ => keeps_pure trivial
  | a :: l, h => by
    change Keeps config I (f a >>= fun _ => l.forM f) _
    exact (h a List.mem_cons_self).andThen fun _ => keeps_forM fun x hx => h x (List.mem_cons_of_mem _ hx)

theorem keeps_forIn {f : α → β → Build (ForInStep β)} (h : ∀ a b, Keeps config I (f a b) fun _ => True) :
    ∀ {l : List α} {b : β}, Keeps config I (forIn l b f) fun _ => True
  | [], b => by
    rw [List.forIn_nil]
    exact keeps_pure trivial
  | a :: l, b => by
    rw [List.forIn_cons]
    refine (h a b).andThen fun next => ?_
    cases next with
    | done b => exact keeps_pure trivial
    | yield b => exact keeps_forIn h

theorem keeps_option_mapM {f : α → Build β} {o : Option α} (h : ∀ a, Keeps config I (f a) fun _ => True) :
    Keeps config I (o.mapM f) fun _ => True := by
  cases o with
  | none => exact keeps_pure trivial
  | some a => exact (h a).andThen fun _ => keeps_pure trivial

end Build

namespace Building

open Build

/-- What is fixed while a call builds: the session it began in, the types that are being filled in, and the session
from which on it is watched. -/
structure Course where
  config : Config
  origin : Session
  filling : List TypeId
  start : Session

namespace Course

structure Passes (course : Course) (s : Session) : Prop where
  moves : Session.Moves course.origin course.start s
  since : Session.Since course.origin s
  filling : ∀ id ∈ course.filling, ¬ course.origin.graph.HasType id ∧ s.Unfinished id

/-- The property was not there when the call began. -/
def New (course : Course) (id : PropertyId) : Prop := ¬ course.origin.graph.HasProperty id

def opening (course : Course) (type : TypeId) : Course := { course with filling := type :: course.filling }

abbrev Keeps {α : Type} (course : Course) (x : Build α) (q : α → Prop) : Prop :=
  Build.Keeps course.config course.Passes x q

/-- A type has been reserved that is now being filled in. -/
abbrev Opens (course : Course) (x : Build TypeId) : Prop :=
  Meets course.config course.Passes x
    (fun type s => type ∉ course.filling ∧ (course.opening type).Passes s) course.Passes

/-- The type that was being filled in is finished, or what ended the call keeps it from being. -/
abbrev Closes {α : Type} (course : Course) (type : TypeId) (x : Build α) (q : α → Prop) : Prop :=
  Meets course.config (course.opening type).Passes x (fun a s => course.Passes s ∧ q a) course.Passes

variable {course : Course} {α β : Type} {s s' : Session} {id : PropertyId} {type : TypeId} {q : α → Prop}

theorem Passes.start (hsince : Session.Since course.origin course.start)
    (hfilling : ∀ id ∈ course.filling, ¬ course.origin.graph.HasType id ∧ course.start.Unfinished id) :
    course.Passes course.start := ⟨.refl, hsince, hfilling⟩

theorem Passes.opened (h : (course.opening type).Passes s) : course.Passes s :=
  ⟨h.moves, h.since, fun id hid => h.filling id (List.mem_cons_of_mem _ hid)⟩

/-- A write that finishes none of the types that are being filled in. -/
theorem Passes.move (h : course.Passes s) (hmove : Session.Move course.origin s s')
    (hunfinished : ∀ id ∈ course.filling, s.Unfinished id → s'.Unfinished id) : course.Passes s' := by
  refine ⟨h.moves.tail hmove, hmove.since h.since, fun id hid => ?_⟩
  obtain ⟨hnew, hu⟩ := h.filling id hid
  exact ⟨hnew, hunfinished id hid hu⟩

theorem Passes.of_types (h : course.Passes s) (hmove : Session.Move course.origin s s')
    (htypes : s'.graph.types = s.graph.types) : course.Passes s' :=
  h.move hmove fun id _ hu => (Scene.asFinished_of_types htypes id).2 hu

/-- What is added is new. -/
theorem Passes.new_addProperty (h : course.Passes s) (property : Property) :
    course.New (s.graph.addProperty property).1 :=
  fun hlt => Nat.lt_irrefl _ (Nat.lt_of_lt_of_le hlt h.since.endures.grows.properties)

theorem meets_addProperty {property : Property} {P H : Session → Prop} {Q : PropertyId → Session → Prop}
    (hQ : ∀ s, P s → Q (s.graph.addProperty property).1 (s.withGraph (s.graph.addProperty property).2)) :
    Meets course.config P (Build.addProperty property) Q H :=
  fun s hs => ⟨fun id s' hrun => by
    obtain ⟨rfl, rfl⟩ := Build.runs_addProperty.1 hrun
    exact hQ s hs,
    fun _ _ hhalts => absurd hhalts (Runs.not_halts (Build.runs_addProperty.2 ⟨rfl, rfl⟩))⟩

theorem keeps_addProperty {property : Property} : course.Keeps (Build.addProperty property) course.New :=
  meets_addProperty fun _ hs => ⟨hs.of_types (.add property) rfl, hs.new_addProperty property⟩

/-- A write of the session as a whole. -/
theorem keeps_modify {f : Session → Session} (h : ∀ s, course.Passes s → course.Passes (f s)) :
    course.Keeps (modify f) fun _ => True :=
  meets_of_runs (v := ⟨⟩) (fun _ => Build.runs_modify.2 rfl) fun s hs => ⟨h s hs, trivial⟩

theorem keeps_modifyProperty (hnew : course.New id) {f : Property → Property} :
    course.Keeps (Build.modifyProperty id f) fun _ => True :=
  keeps_modify fun _ hs => hs.of_types (.amend f hnew) rfl

theorem keeps_notify {notice : Notice} (h : notice.isWarning = true) :
    course.Keeps (Build.notify notice) fun _ => True :=
  keeps_modify fun _ hs => hs.of_types (.notify h) rfl

theorem keeps_modifyType (hmem : type ∈ course.filling) {f : ObjectType → ObjectType} (hf : Session.KeepsStanding f) :
    course.Keeps (Build.modifyType type f) fun _ => True :=
  keeps_modify fun s hs => hs.move (.change (hs.filling type hmem).1 hf) fun id _ hu =>
    (Scene.asFinished_modifyType s type hf.signature id).2 hu

theorem keeps_addTypeCheck (hmem : type ∈ course.filling) {check : Check} :
    course.Keeps (Build.addTypeCheck type check) fun _ => True :=
  keeps_modifyType hmem ⟨⟨fun _ => rfl, fun _ => rfl, fun _ => rfl⟩, fun _ => rfl⟩

theorem keeps_addTypeProperty (hmem : type ∈ course.filling) :
    course.Keeps (Build.addTypeProperty type id) fun _ => True :=
  keeps_modifyType hmem ⟨⟨fun _ => rfl, fun _ => rfl, fun _ => rfl⟩, fun _ => rfl⟩

/-! ## From reserving to finishing -/

theorem unfinished_reserve (s : Session) (namespaceName className : String) (isRoot : Bool) (id : TypeId) :
    (s.withGraph (s.graph.reserve namespaceName className isRoot).2).Unfinished id ↔
      s.Unfinished id ∨ id = ⟨s.graph.types.size⟩ := by
  have hsize : (s.graph.reserve namespaceName className isRoot).2.types.size = s.graph.types.size + 1 := by
    simp [Graph.reserve]
  have hentry := Session.entry_reserve_eq s.graph namespaceName className isRoot id
  constructor
  · rintro ⟨hlt, hsignature⟩
    have hlt : id.index < s.graph.types.size + 1 := Nat.lt_of_lt_of_eq hlt hsize
    change ((s.graph.reserve namespaceName className isRoot).2.entry id).signature = none at hsignature
    rw [hentry] at hsignature
    split at hsignature
    · rename_i heq
      exact Or.inr (by cases id; exact congrArg _ heq)
    · rename_i hne
      exact Or.inl ⟨Nat.lt_of_le_of_ne (Nat.le_of_lt_succ hlt) hne, hsignature⟩
  · rintro (hu | rfl)
    · refine ⟨Nat.lt_of_lt_of_eq (Nat.lt_succ_of_lt hu.hasType) hsize.symm, ?_⟩
      exact (congrArg ObjectType.signature (hentry.trans (if_neg (Nat.ne_of_lt hu.hasType)))).trans hu.signature
    · refine ⟨Nat.lt_of_lt_of_eq (Nat.lt_succ_self _) hsize.symm, ?_⟩
      exact congrArg ObjectType.signature (hentry.trans (if_pos rfl))

theorem Passes.reserve (h : course.Passes s) (namespaceName className : String) (isRoot : Bool) :
    (⟨s.graph.types.size⟩ : TypeId) ∉ course.filling ∧
      (course.opening ⟨s.graph.types.size⟩).Passes
        (s.withGraph (s.graph.reserve namespaceName className isRoot).2) := by
  have hunfinished := unfinished_reserve s namespaceName className isRoot
  have hpasses := h.move (.reserve namespaceName className isRoot) fun id _ hu => (hunfinished id).2 (Or.inl hu)
  refine ⟨fun hmem => Nat.lt_irrefl _ (h.filling _ hmem).2.hasType, hpasses.moves, hpasses.since, fun id hid => ?_⟩
  rcases List.mem_cons.1 hid with rfl | hid
  · refine ⟨fun hlt => Nat.lt_irrefl _ (Nat.lt_of_lt_of_le hlt h.since.endures.grows.types), ?_⟩
    exact (hunfinished _).2 (Or.inr rfl)
  · exact hpasses.filling id hid

theorem opens_reserve {namespaceName className : String} {isRoot : Bool} :
    course.Opens (Build.reserve namespaceName className isRoot) :=
  fun s hs => ⟨fun type s' hrun => by
    obtain ⟨rfl, rfl⟩ := Build.runs_reserve.1 hrun
    exact hs.reserve namespaceName className isRoot,
    fun _ _ hhalts => absurd hhalts (Runs.not_halts (Build.runs_reserve.2 ⟨rfl, rfl⟩))⟩

/-- Finishing a type finishes no other one. -/
theorem unfinished_finish {config : Config} {target other : TypeId} (hrun : (finish type).Runs config s target s')
    (hne : other ≠ type) (hu : s.Unfinished other) : s'.Unfinished other := by
  obtain ⟨_, _, _, _, hgraph⟩ := Session.runs_finish hrun
  have hindex : other.index ≠ type.index := fun heq => hne (by cases other; cases type; exact congrArg _ heq)
  refine ⟨?_, ?_⟩
  · unfold Graph.HasType
    rw [hgraph, Session.size_modifyType]
    exact hu.hasType
  · rw [hgraph, Session.entry_modifyType_of_ne _ _ hindex]
    exact hu.signature

theorem closes_finish (hnot : type ∉ course.filling) : course.Closes type (finish type) fun _ => True := by
  refine fun s hs => ⟨fun target s' hrun => ⟨?_, trivial⟩, fun halt s' hhalts => absurd hhalts Scene.not_halts_finish⟩
  obtain ⟨hnew, hu⟩ := hs.filling type List.mem_cons_self
  refine hs.opened.move (.finish hnew hu hrun) fun id hid hother => ?_
  exact unfinished_finish hrun (fun heq => hnot (heq ▸ hid)) hother

/-- **What reserves a type and finishes it** keeps to the course. -/
theorem keeps_bracket {x : Build TypeId} {f : TypeId → Build α} (hx : course.Opens x)
    (hf : ∀ type, type ∉ course.filling → course.Closes type (f type) q) : course.Keeps (x >>= f) q :=
  Meets.bind hx fun type s hs => hf type hs.1 s hs.2

theorem Closes.andThen {x : Build α} {f : α → Build β} {r : β → Prop} (hx : course.Closes type x q)
    (hf : ∀ a, course.Keeps (f a) r) : course.Closes type (x >>= f) r :=
  Meets.bind hx fun a s hs => hf a s hs.1

/-- What comes before closing is still about the type that is being filled in. -/
theorem Closes.after {x : Build α} {f : α → Build β} {r : β → Prop} (hx : (course.opening type).Keeps x q)
    (hf : ∀ a, course.Closes type (f a) r) : course.Closes type (x >>= f) r :=
  Meets.bind (Q := fun _ s => (course.opening type).Passes s)
    (fun s hs => ⟨fun a s' hrun => ((hx s hs).1 a s' hrun).1,
      fun halt s' hhalts => ((hx s hs).2 halt s' hhalts).opened⟩)
    fun a s hs => hf a s hs

end Course
end Building
end SchemaTypes

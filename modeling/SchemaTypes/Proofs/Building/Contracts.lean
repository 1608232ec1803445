import SchemaTypes.Proofs.Building.Placeholders
import SchemaTypes.Proofs.Reference.Leads
/-!
# Contracts of building functions

`env.Ensures x Q`: wherever `x` succeeds, it took steps above the floor, began and completed no definition
that is left in a new state, recorded no signature of a type that was there before, and ended as `Q` says.  The
rules below follow the shape of programs, so the contract of a function is put together from those of what it
calls.

`Env.Holds` is what a caller owes.  In a tidy environment that is more than the floor: whatever is being built
leads to every reference still to come, and no alias lies on such a way.
-/
namespace SchemaTypes.Building

/-- What is fixed while a node is built: the document its references start from, the references it may spell,
and the first type that may change. -/
structure Env where
  tidy : Prop
  config : Config
  document : String
  spelled : List String
  floor : Nat

namespace Env

def allowed (env : Env) : Bool := env.config.settings.implicitNull

/-- Every definition without a type of its own that is being built leads to the references to come. -/
structure Guards (env : Env) (s : Session) : Prop where
  sound : s.Sound
  distinct : Distinct s.documents
  noAliasCycle : NoAliasCycle s.documents
  plain : ∀ key, s.InProgress key none → IsPlain s.documents key
  leads : ∀ key, s.InProgress key none → ∀ reference ∈ env.spelled, ∀ target,
    targetIn? s.documents env.document reference = some target → Leads s.documents key target.key

structure Holds (env : Env) (s : Session) : Prop where
  floor : env.floor ≤ s.graph.types.size
  guards : env.tidy → env.Guards s

/-- From one session to a later one: what is in progress is the same again, and old types are as finished or
unfinished as before. -/
structure After (env : Env) (s s' : Session) : Prop where
  steps : Session.Steps env.tidy env.allowed env.floor s s'
  inProgress : ∀ key type, s'.InProgress key type ↔ s.InProgress key type
  signature : ∀ id : TypeId, id.index < s.graph.types.size →
    (s'.graph.entry id).signature = (s.graph.entry id).signature

/-- Wherever the computation succeeds, it keeps to steps and ends as the postcondition says. -/
def Ensures (env : Env) {α : Type} (x : Build α) (Q : α → Session → Prop) : Prop :=
  ∀ ⦃s a s'⦄, env.Holds s → x.Runs env.config s a s' → env.After s s' ∧ Q a s'

variable {env : Env} {α β : Type} {s m s' : Session}

theorem After.refl (env : Env) (s : Session) : env.After s s :=
  ⟨.refl, fun _ _ => Iff.rfl, fun _ _ => rfl⟩

theorem After.trans (h : env.After s m) (h' : env.After m s') : env.After s s' where
  steps := h.steps.trans h'.steps
  inProgress key type := (h'.inProgress key type).trans (h.inProgress key type)
  signature id hid :=
    (h'.signature id (Nat.lt_of_lt_of_le hid h.steps.size_types_le)).trans (h.signature id hid)

theorem Guards.after (h : env.Guards s) (htidy : env.tidy) (hafter : env.After s s') : env.Guards s' := by
  have hdocuments := hafter.steps.documents
  refine ⟨hafter.steps.sound htidy h.sound, hdocuments ▸ h.distinct, hdocuments ▸ h.noAliasCycle, ?_, ?_⟩
  · intro key hkey
    rw [hdocuments]
    exact h.plain key ((hafter.inProgress key none).1 hkey)
  · intro key hkey
    rw [hdocuments]
    exact h.leads key ((hafter.inProgress key none).1 hkey)

theorem Holds.after (h : env.Holds s) (hafter : env.After s s') : env.Holds s' :=
  ⟨Nat.le_trans h.floor hafter.steps.size_types_le, fun htidy => (h.guards htidy).after htidy hafter⟩

/-! ## Sequences and results -/

theorem ensures_pure {a : α} {Q : α → Session → Prop} (h : ∀ s, Q a s) : env.Ensures (pure a) Q := by
  intro s b s' _ hrun
  obtain ⟨rfl, rfl⟩ := Build.runs_pure.1 hrun
  exact ⟨.refl env s', h s'⟩

theorem Ensures.imp {x : Build α} {P Q : α → Session → Prop} (h : env.Ensures x P) (hPQ : ∀ a s, P a s → Q a s) :
    env.Ensures x Q := by
  intro s a s' hs hrun
  obtain ⟨hafter, hP⟩ := h hs hrun
  exact ⟨hafter, hPQ a s' hP⟩

theorem Ensures.bind {x : Build α} {f : α → Build β} {q : α → Prop} {Q : β → Session → Prop}
    (hx : env.Ensures x fun a _ => q a) (hf : ∀ a, q a → env.Ensures (f a) Q) : env.Ensures (x >>= f) Q := by
  intro s b s' hs hrun
  obtain ⟨a, m, hxrun, hfrun⟩ := Build.runs_bind.1 hrun
  obtain ⟨hafter, ha⟩ := hx hs hxrun
  obtain ⟨hafter', hQ⟩ := hf a ha (hs.after hafter) hfrun
  exact ⟨hafter.trans hafter', hQ⟩

/-- A first part whose result does not matter. -/
theorem Ensures.andThen {x : Build α} {f : α → Build β} {P : α → Session → Prop} {Q : β → Session → Prop}
    (hx : env.Ensures x P) (hf : ∀ a, env.Ensures (f a) Q) : env.Ensures (x >>= f) Q :=
  Ensures.bind (q := fun _ => True) (hx.imp fun _ _ _ => trivial) fun a _ => hf a

theorem ensures_refuse {fault : SchemaFault} {Q : α → Session → Prop} : env.Ensures (Build.refuse fault) Q :=
  fun _ _ _ _ hrun => absurd hrun Build.not_runs_refuse

theorem ensures_malformed {property reason : String} {Q : α → Session → Prop} :
    env.Ensures (Build.malformed property reason) Q := ensures_refuse

/-- What only reads. -/
theorem ensures_of_reads {x : Build α} {q : α → Prop}
    (h : ∀ s a s', x.Runs env.config s a s' → s' = s ∧ q a) : env.Ensures x fun a _ => q a := by
  intro s a s' _ hrun
  obtain ⟨rfl, ha⟩ := h s a s' hrun
  exact ⟨.refl env s', ha⟩

theorem ensures_read : env.Ensures (read : Build Config) fun config _ => config = env.config :=
  ensures_of_reads fun _ _ _ hrun => ⟨(Build.runs_read.1 hrun).2, (Build.runs_read.1 hrun).1⟩

theorem ensures_graph : env.Ensures Build.graph fun _ _ => True :=
  ensures_of_reads fun _ _ _ hrun => ⟨(Build.runs_graph.1 hrun).2, trivial⟩

theorem ensures_allowsNull {required : Bool} : env.Ensures (Build.allowsNull required) fun _ _ => True :=
  ensures_of_reads fun _ _ _ hrun => ⟨(Build.runs_allowsNull.1 hrun).2, trivial⟩

/-! ## Loops -/

theorem ensures_mapM {f : α → Build β} {q : β → Prop} : ∀ {l : List α},
    (∀ a ∈ l, env.Ensures (f a) fun b _ => q b) → env.Ensures (l.mapM f) fun bs _ => ∀ b ∈ bs, q b
  | [], _ => by
    rw [List.mapM_nil]
    exact ensures_pure fun _ b hb => absurd hb List.not_mem_nil
  | a :: l, h => by
    rw [List.mapM_cons]
    refine (h a List.mem_cons_self).bind fun b hb => ?_
    refine (ensures_mapM fun x hx => h x (List.mem_cons_of_mem _ hx)).bind fun bs hbs => ?_
    refine ensures_pure fun _ x hx => ?_
    rcases List.mem_cons.1 hx with rfl | hx
    · exact hb
    · exact hbs x hx

theorem ensures_foldlM {f : β → α → Build β} {q : β → Prop} : ∀ {l : List α} {b : β}, q b →
    (∀ a ∈ l, ∀ b, q b → env.Ensures (f b a) fun b _ => q b) → env.Ensures (l.foldlM f b) fun b _ => q b
  | [], b, hb, _ => by
    rw [List.foldlM_nil]
    exact ensures_pure fun _ => hb
  | a :: l, b, hb, h => by
    rw [List.foldlM_cons]
    refine (h a List.mem_cons_self b hb).bind fun b' hb' => ?_
    exact ensures_foldlM hb' fun x hx => h x (List.mem_cons_of_mem _ hx)

theorem ensures_forM {f : α → Build Unit} : ∀ {l : List α},
    (∀ a ∈ l, env.Ensures (f a) fun _ _ => True) → env.Ensures (l.forM f) fun _ _ => True
  | [], _ => ensures_pure fun _ => trivial
  | a :: l, h => by
    change env.Ensures (f a >>= fun _ => l.forM f) _
    exact (h a List.mem_cons_self).andThen fun _ => ensures_forM fun x hx => h x (List.mem_cons_of_mem _ hx)

theorem ensures_forIn {f : α → β → Build (ForInStep β)} : ∀ {l : List α} {b : β},
    (∀ a ∈ l, ∀ b, env.Ensures (f a b) fun _ _ => True) → env.Ensures (forIn l b f) fun _ _ => True
  | [], b, _ => by
    rw [List.forIn_nil]
    exact ensures_pure fun _ => trivial
  | a :: l, b, h => by
    rw [List.forIn_cons]
    refine (h a List.mem_cons_self b).andThen fun next => ?_
    cases next with
    | done b => exact ensures_pure fun _ => trivial
    | yield b => exact ensures_forIn fun x hx => h x (List.mem_cons_of_mem _ hx)

theorem ensures_option_mapM {f : α → Build β} {q : β → Prop} {o : Option α}
    (h : ∀ a, o = some a → env.Ensures (f a) fun b _ => q b) :
    env.Ensures (o.mapM f) fun _ _ => True := by
  cases o with
  | none => exact ensures_pure fun _ => trivial
  | some a => exact (h a rfl).andThen fun _ => ensures_pure fun _ => trivial

/-! ## Single steps -/

/-- A step that touches neither definitions nor the signatures of old types. -/
theorem After.of_step (h : Session.Step env.tidy env.allowed env.floor s s')
    (hdefinitions : ∀ key, s'.definition? key = s.definition? key)
    (hsignature : ∀ id : TypeId, id.index < s.graph.types.size →
      (s'.graph.entry id).signature = (s.graph.entry id).signature) : env.After s s' := by
  refine ⟨.single h, fun key type => ?_, hsignature⟩
  unfold Session.InProgress
  rw [hdefinitions]

theorem ensures_notify {notice : Notice} : env.Ensures (Build.notify notice) fun _ _ => True := by
  intro s a s' _ hrun
  obtain rfl := Build.runs_modify.1 hrun
  exact ⟨.of_step (.notify notice) (fun _ => rfl) fun _ _ => rfl, trivial⟩

/-- A property that waits for nothing may be added. -/
theorem ensures_addProperty {property : Property} (h : property.defers = false) :
    env.Ensures (Build.addProperty property) fun id s => s.Settled id := by
  intro s id s' _ hrun
  obtain ⟨rfl, rfl⟩ := Build.runs_addProperty.1 hrun
  refine ⟨.of_step (.add h) (fun _ => rfl) fun _ _ => rfl, ?_, ?_⟩
  · simp [Graph.addProperty]
  · exact (congrArg Property.defers (Graph.property_addProperty _ _)).trans h

/-- The reserved type is a new one. -/
theorem ensures_reserve {namespaceName className : String} {isRoot : Bool} :
    env.Ensures (Build.reserve namespaceName className isRoot) fun id _ => env.floor ≤ id.index := by
  intro s id s' hs hrun
  obtain ⟨rfl, rfl⟩ := Build.runs_reserve.1 hrun
  refine ⟨.of_step (.reserve namespaceName className isRoot) (fun _ => rfl) fun id hid => ?_, hs.floor⟩
  exact congrArg ObjectType.signature (Session.entry_reserve_of_lt _ _ _ _ hid)

theorem ensures_modifyType {id : TypeId} {f : ObjectType → ObjectType} (hid : env.floor ≤ id.index)
    (hf : Session.KeepsIdentity f) : env.Ensures (Build.modifyType id f) fun _ _ => True := by
  intro s a s' _ hrun
  obtain rfl := Build.runs_modifyGraph.1 hrun
  exact ⟨.of_step (.change hid hf) (fun _ => rfl) fun other _ => (hf.entry s.graph id other).1, trivial⟩

theorem ensures_addTypeCheck {id : TypeId} {check : Check} (hid : env.floor ≤ id.index) :
    env.Ensures (Build.addTypeCheck id check) fun _ _ => True :=
  ensures_modifyType hid ⟨fun _ => rfl, fun _ => rfl, fun _ => rfl⟩

theorem ensures_addTypeProperty {id : TypeId} {property : PropertyId} (hid : env.floor ≤ id.index) :
    env.Ensures (Build.addTypeProperty id property) fun _ _ => True :=
  ensures_modifyType hid ⟨fun _ => rfl, fun _ => rfl, fun _ => rfl⟩

/-- A change of a property that keeps what it demands. -/
theorem ensures_amend {id : PropertyId} {f : Property → Property}
    (hf : ∀ property, (f property).defers = property.defers ∧ (f property).demands = property.demands) :
    env.Ensures (Build.modifyProperty id f) fun _ _ => True := by
  intro s a s' _ hrun
  obtain rfl := Build.runs_modifyGraph.1 hrun
  exact ⟨.of_step (.amend hf) (fun _ => rfl) fun _ _ => rfl, trivial⟩

theorem ensures_relax {id : PropertyId} : env.Ensures (Build.modifyProperty id Property.relax) fun _ _ => True :=
  ensures_amend fun property => ⟨property.defers_relax, property.demands_relax⟩

end Env
end SchemaTypes.Building

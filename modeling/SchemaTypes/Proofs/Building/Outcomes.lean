import SchemaTypes.Proofs.Building.Writes
import SchemaTypes.Proofs.Reference.Leads
/-!
# Contracts of both outcomes

`scene.Yields s x Q`: from the session `s`, however `x` ends, it has made writes and nothing else.  If it succeeds,
it has finished every type it reserved, and it ends as `Q` says.  If it halts for a reference, the references of the
scene lead to a broken one.  `scene.Ends` says the same without the types; it is for what lies between reserving a
type and finishing it.  `scene.Reads` is for what leaves the session alone.

The rules follow the shape of programs.  What holds of the session at one point and is needed at a later one has to
survive writes; ids that have been handed out do.
-/
namespace SchemaTypes

/-- The same types are unfinished. -/
def Session.AsFinished (s s' : Session) : Prop := ∀ id, s'.Unfinished id ↔ s.Unfinished id

namespace Building

/-- What is fixed while a node is built: the documents, the one its references start from, and the references that
it may spell. -/
structure Scene where
  config : Config
  documents : Reference.Documents
  document : String
  spelled : List String

namespace Scene

def allowed (scene : Scene) : Bool := scene.config.settings.implicitNull

/-- What holds of every session while the scene lasts. -/
structure Stands (scene : Scene) (s : Session) : Prop where
  documents : s.documents = scene.documents
  closed : s.Closed
  inStep : ∀ id, (s.graph.property id).InStep scene.allowed

/-- What a halt may be: any but one for a reference that nothing spelled here leads to, or that is not broken. -/
def Explains (scene : Scene) : Halt → Prop
  | .refused (.unresolvedReference reference) => Broken scene.documents scene.document scene.spelled reference
  | _ => True

/-- Either outcome leaves the session alone. -/
def Reads (scene : Scene) (s : Session) {α : Type} (x : Build α) (q : α → Prop) : Prop :=
  scene.Stands s →
    (∀ a s', x.Runs scene.config s a s' → s' = s ∧ q a) ∧
      ∀ halt s', x.Halts scene.config s halt s' → s' = s ∧ scene.Explains halt

/-- Either outcome has made writes. -/
def Ends (scene : Scene) (s : Session) {α : Type} (x : Build α) (Q : α → Session → Prop) : Prop :=
  scene.Stands s →
    (∀ a s', x.Runs scene.config s a s' → Session.Writes scene.allowed s s' ∧ Q a s') ∧
      ∀ halt s', x.Halts scene.config s halt s' → Session.Writes scene.allowed s s' ∧ scene.Explains halt

/-- Either outcome has made writes, and success has finished what it began. -/
def Yields (scene : Scene) (s : Session) {α : Type} (x : Build α) (Q : α → Session → Prop) : Prop :=
  scene.Ends s x fun a s' => s.AsFinished s' ∧ Q a s'

variable {scene : Scene} {α β : Type} {s m s' : Session}

theorem Stands.writes (h : scene.Stands s) (hwrites : Session.Writes scene.allowed s s') : scene.Stands s' :=
  ⟨hwrites.documents.trans h.documents, hwrites.closed h.closed, hwrites.inStep h.inStep⟩

/-! ## Reading -/

section Reading

variable {x : Build α} {f : α → Build β} {q : α → Prop} {r : β → Prop}

/-- What succeeds in one way only does not halt. -/
theorem reads_of_runs {v : α} (hx : x.Runs scene.config s v s) (hq : q v) : scene.Reads s x q := by
  refine fun _ => ⟨fun a s' hrun => ?_, fun halt s' hhalts => absurd hhalts hx.not_halts⟩
  obtain ⟨rfl, rfl⟩ := hrun.unique hx
  exact ⟨rfl, hq⟩

theorem reads_pure {a : α} (h : q a) : scene.Reads s (pure a) q := reads_of_runs (Build.runs_pure.2 ⟨rfl, rfl⟩) h

theorem reads_throw {halt : Halt} (h : scene.Explains halt) : scene.Reads s (throw halt : Build α) q := by
  refine fun _ => ⟨fun a s' hrun => absurd hrun Build.not_runs_throw, fun other s' hhalts => ?_⟩
  obtain ⟨rfl, rfl⟩ := Build.halts_throw.1 hhalts
  exact ⟨rfl, h⟩

theorem reads_refuse {fault : SchemaFault} (h : scene.Explains (.refused fault)) :
    scene.Reads s (Build.refuse fault : Build α) q := reads_throw h

theorem reads_malformed {property reason : String} : scene.Reads s (Build.malformed property reason : Build α) q :=
  reads_refuse trivial

theorem Reads.imp {q' : α → Prop} (h : scene.Reads s x q) (hqq' : ∀ a, q a → q' a) : scene.Reads s x q' := by
  intro hs
  refine ⟨fun a s' hrun => ?_, (h hs).2⟩
  obtain ⟨rfl, ha⟩ := (h hs).1 a s' hrun
  exact ⟨rfl, hqq' a ha⟩

theorem Reads.bind (hx : scene.Reads s x q) (hf : ∀ a, q a → scene.Reads s (f a) r) : scene.Reads s (x >>= f) r := by
  intro hs
  refine ⟨fun b s' hrun => ?_, fun halt s' hhalts => ?_⟩
  · obtain ⟨a, m, hxrun, hfrun⟩ := Build.runs_bind.1 hrun
    obtain ⟨rfl, ha⟩ := (hx hs).1 a m hxrun
    exact (hf a ha hs).1 b s' hfrun
  · rcases Build.halts_bind.1 hhalts with hxhalts | ⟨a, m, hxrun, hfhalts⟩
    · exact (hx hs).2 halt s' hxhalts
    · obtain ⟨rfl, ha⟩ := (hx hs).1 a m hxrun
      exact (hf a ha hs).2 halt s' hfhalts

/-- Behind a first part with a known result. -/
theorem Reads.after {v : α} (hx : x.Runs scene.config s v s) (hf : scene.Reads s (f v) r) :
    scene.Reads s (x >>= f) r :=
  (reads_of_runs (q := (· = v)) hx rfl).bind fun _ ha => ha ▸ hf

theorem reads_mapM : ∀ {l : List β} {f : β → Build α}, (∀ b ∈ l, scene.Reads s (f b) q) →
    scene.Reads s (l.mapM f) fun as => ∀ a ∈ as, q a
  | [], _, _ => by
    rw [List.mapM_nil]
    exact reads_pure fun _ ha => absurd ha List.not_mem_nil
  | b :: l, f, h => by
    rw [List.mapM_cons]
    refine (h b List.mem_cons_self).bind fun a ha => ?_
    refine (reads_mapM fun x hx => h x (List.mem_cons_of_mem _ hx)).bind fun as has => ?_
    exact reads_pure (List.forall_mem_cons.2 ⟨ha, has⟩)

theorem reads_foldlM : ∀ {l : List β} {f : α → β → Build α} {a : α}, q a →
    (∀ b ∈ l, ∀ a, q a → scene.Reads s (f a b) q) → scene.Reads s (l.foldlM f a) q
  | [], _, _, ha, _ => by
    rw [List.foldlM_nil]
    exact reads_pure ha
  | b :: l, f, a, ha, h => by
    rw [List.foldlM_cons]
    exact (h b List.mem_cons_self a ha).bind fun _ ha' =>
      reads_foldlM ha' fun x hx => h x (List.mem_cons_of_mem _ hx)

end Reading

/-! ## Writing -/

section Writing

variable {x : Build α} {f : α → Build β} {P : α → Session → Prop} {Q : β → Session → Prop}

theorem ends_of_runs {v : α} {t : Session} (hx : x.Runs scene.config s v t)
    (hwrites : Session.Writes scene.allowed s t) (hP : P v t) : scene.Ends s x P := by
  refine fun _ => ⟨fun a s' hrun => ?_, fun halt s' hhalts => absurd hhalts hx.not_halts⟩
  obtain ⟨rfl, rfl⟩ := hrun.unique hx
  exact ⟨hwrites, hP⟩

theorem Ends.imp {P' : α → Session → Prop} (h : scene.Ends s x P) (hPP' : ∀ a s', P a s' → P' a s') :
    scene.Ends s x P' := by
  intro hs
  refine ⟨fun a s' hrun => ?_, (h hs).2⟩
  obtain ⟨hwrites, hP⟩ := (h hs).1 a s' hrun
  exact ⟨hwrites, hPP' a s' hP⟩

theorem Ends.bind (hx : scene.Ends s x P)
    (hf : ∀ a m, Session.Writes scene.allowed s m → P a m → scene.Ends m (f a) Q) : scene.Ends s (x >>= f) Q := by
  intro hs
  refine ⟨fun b s' hrun => ?_, fun halt s' hhalts => ?_⟩
  · obtain ⟨a, m, hxrun, hfrun⟩ := Build.runs_bind.1 hrun
    obtain ⟨hwrites, ha⟩ := (hx hs).1 a m hxrun
    obtain ⟨hwrites', hQ⟩ := (hf a m hwrites ha (hs.writes hwrites)).1 b s' hfrun
    exact ⟨hwrites.trans hwrites', hQ⟩
  · rcases Build.halts_bind.1 hhalts with hxhalts | ⟨a, m, hxrun, hfhalts⟩
    · exact (hx hs).2 halt s' hxhalts
    -- The session of a halt in the second part keeps what the first part has written.
    · obtain ⟨hwrites, ha⟩ := (hx hs).1 a m hxrun
      obtain ⟨hwrites', hexplains⟩ := (hf a m hwrites ha (hs.writes hwrites)).2 halt s' hfhalts
      exact ⟨hwrites.trans hwrites', hexplains⟩

/-- What holds of the session from the start may be used. -/
theorem yields_of_stands (h : scene.Stands s → scene.Yields s x P) : scene.Yields s x P := fun hs => h hs hs

theorem Reads.ends {q : α → Prop} (h : scene.Reads s x q) : scene.Ends s x fun a s' => s' = s ∧ q a := by
  refine fun hs => ⟨fun a s' hrun => ?_, fun halt s' hhalts => ?_⟩
  · obtain ⟨rfl, ha⟩ := (h hs).1 a s' hrun
    exact ⟨.refl, rfl, ha⟩
  · obtain ⟨rfl, hexplains⟩ := (h hs).2 halt s' hhalts
    exact ⟨.refl, hexplains⟩

theorem Reads.yields {q : α → Prop} (h : scene.Reads s x q) (hqP : ∀ a, q a → P a s) : scene.Yields s x P := by
  refine h.ends.imp fun a s' ha => ?_
  obtain ⟨rfl, ha⟩ := ha
  exact ⟨fun _ => Iff.rfl, hqP a ha⟩

/-- First something read, and then the rest from the same session. -/
theorem Reads.endsThen {q : α → Prop} (hx : scene.Reads s x q) (hf : ∀ a, q a → scene.Ends s (f a) Q) :
    scene.Ends s (x >>= f) Q := by
  refine hx.ends.bind fun a m _ ha => ?_
  obtain ⟨rfl, ha⟩ := ha
  exact hf a ha

theorem Reads.yieldsThen {q : α → Prop} (hx : scene.Reads s x q) (hf : ∀ a, q a → scene.Yields s (f a) Q) :
    scene.Yields s (x >>= f) Q := hx.endsThen hf

theorem Yields.after {v : α} (hx : x.Runs scene.config s v s) (hf : scene.Yields s (f v) Q) :
    scene.Yields s (x >>= f) Q :=
  (reads_of_runs (q := (· = v)) hx rfl).yieldsThen fun _ ha => ha ▸ hf

theorem yields_pure {a : α} (h : P a s) : scene.Yields s (pure a) P :=
  (reads_pure (q := (· = a)) rfl).yields fun _ ha => ha ▸ h

theorem yields_refuse {fault : SchemaFault} (h : scene.Explains (.refused fault)) :
    scene.Yields s (Build.refuse fault) P := (reads_refuse (q := fun _ => False) h).yields fun _ hfalse => hfalse.elim

theorem yields_malformed {property reason : String} : scene.Yields s (Build.malformed property reason) P :=
  yields_refuse trivial

theorem Yields.imp {P' : α → Session → Prop} (h : scene.Yields s x P) (hPP' : ∀ a s', P a s' → P' a s') :
    scene.Yields s x P' := Ends.imp h fun a s' ha => ⟨ha.1, hPP' a s' ha.2⟩

theorem Yields.bind (hx : scene.Yields s x P)
    (hf : ∀ a m, Session.Writes scene.allowed s m → P a m → scene.Yields m (f a) Q) :
    scene.Yields s (x >>= f) Q := by
  refine Ends.bind hx fun a m hwrites ha => ?_
  refine Ends.imp (hf a m hwrites ha.2) fun b s' hb => ?_
  exact ⟨fun id => (hb.1 id).trans (ha.1 id), hb.2⟩

end Writing

/-! ## Loops -/

theorem yields_mapM {f : α → Build β} {P : β → Session → Prop}
    (hP : ∀ b m m', Session.Writes scene.allowed m m' → P b m → P b m') : ∀ {l : List α} {s : Session},
    (∀ a ∈ l, ∀ m, Session.Writes scene.allowed s m → scene.Yields m (f a) P) →
      scene.Yields s (l.mapM f) fun bs s' => ∀ b ∈ bs, P b s'
  | [], s, _ => by
    rw [List.mapM_nil]
    exact yields_pure fun _ hb => absurd hb List.not_mem_nil
  | a :: l, s, h => by
    rw [List.mapM_cons]
    refine (h a List.mem_cons_self s .refl).bind fun b m hm hb => ?_
    refine (yields_mapM hP fun x hx t ht => h x (List.mem_cons_of_mem _ hx) t (hm.trans ht)).bind
      fun bs t ht hbs => ?_
    exact yields_pure (List.forall_mem_cons.2 ⟨hP b m t ht hb, hbs⟩)

theorem yields_foldlM {f : β → α → Build β} {P : β → Session → Prop} : ∀ {l : List α} {s : Session} {b : β}, P b s →
    (∀ a ∈ l, ∀ b m, Session.Writes scene.allowed s m → P b m → scene.Yields m (f b a) P) →
      scene.Yields s (l.foldlM f b) P
  | [], s, b, hb, _ => by
    rw [List.foldlM_nil]
    exact yields_pure hb
  | a :: l, s, b, hb, h => by
    rw [List.foldlM_cons]
    refine (h a List.mem_cons_self b s .refl hb).bind fun b' m hm hb' => ?_
    exact yields_foldlM hb' fun x hx c t ht => h x (List.mem_cons_of_mem _ hx) c t (hm.trans ht)

theorem yields_forM {f : α → Build Unit} : ∀ {l : List α} {s : Session},
    (∀ a ∈ l, ∀ m, Session.Writes scene.allowed s m → scene.Yields m (f a) fun _ _ => True) →
      scene.Yields s (l.forM f) fun _ _ => True
  | [], s, _ => yields_pure trivial
  | a :: l, s, h => by
    change scene.Yields s (f a >>= fun _ => l.forM f) _
    exact (h a List.mem_cons_self s .refl).bind fun _ m hm _ =>
      yields_forM fun x hx t ht => h x (List.mem_cons_of_mem _ hx) t (hm.trans ht)

theorem yields_forIn {f : α → β → Build (ForInStep β)} : ∀ {l : List α} {b : β} {s : Session},
    (∀ a ∈ l, ∀ b m, Session.Writes scene.allowed s m → scene.Yields m (f a b) fun _ _ => True) →
      scene.Yields s (forIn l b f) fun _ _ => True
  | [], b, s, _ => by
    rw [List.forIn_nil]
    exact yields_pure trivial
  | a :: l, b, s, h => by
    rw [List.forIn_cons]
    refine (h a List.mem_cons_self b s .refl).bind fun next m hm _ => ?_
    cases next with
    | done b => exact yields_pure trivial
    | yield b => exact yields_forIn fun x hx c t ht => h x (List.mem_cons_of_mem _ hx) c t (hm.trans ht)

theorem yields_option_mapM {f : α → Build β} {P : β → Session → Prop} {o : Option α}
    (h : ∀ a, o = some a → scene.Yields s (f a) P) :
    scene.Yields s (o.mapM f) fun found s' => ∀ b, found = some b → P b s' := by
  cases o with
  | none => exact yields_pure fun _ hnone => nomatch hnone
  | some a =>
    refine (h a rfl).bind fun b m _ hb => yields_pure fun b' heq => ?_
    cases heq
    exact hb

/-! ## Single writes -/

/-- Changing what a type holds does not finish it. -/
theorem asFinished_modifyType (s : Session) (id : TypeId) {f : ObjectType → ObjectType}
    (hf : ∀ type, (f type).signature = type.signature) : s.AsFinished (s.withGraph (s.graph.modifyType id f)) := by
  intro other
  have hsignature : ((s.graph.modifyType id f).entry other).signature = (s.graph.entry other).signature := by
    rw [Session.entry_modifyType_eq]
    split
    · exact hf _
    · rfl
  have hsize : (s.graph.modifyType id f).types.size = s.graph.types.size := Session.size_modifyType _ _ _
  constructor
  · exact fun h => ⟨Nat.lt_of_lt_of_eq h.hasType hsize, hsignature.symm.trans h.signature⟩
  · exact fun h => ⟨Nat.lt_of_lt_of_eq h.hasType hsize.symm, hsignature.trans h.signature⟩

/-- What changes no type finishes none. -/
theorem asFinished_of_types (h : s'.graph.types = s.graph.types) : s.AsFinished s' := by
  intro id
  have hentry : s'.graph.entry id = s.graph.entry id := by
    unfold Graph.entry
    rw [h]
  constructor
  · exact fun hu => ⟨Nat.lt_of_lt_of_eq hu.hasType (congrArg Array.size h), hentry ▸ hu.signature⟩
  · exact fun hu => ⟨Nat.lt_of_lt_of_eq hu.hasType (congrArg Array.size h.symm), hentry.symm ▸ hu.signature⟩

theorem yields_modify {f : Session → Session} {P : PUnit → Session → Prop}
    (hwrite : Session.Write scene.allowed s (f s)) (hfinished : s.AsFinished (f s)) (hP : P ⟨⟩ (f s)) :
    scene.Yields s (modify f) P :=
  ends_of_runs (v := ⟨⟩) (Build.runs_modify.2 rfl) (.single hwrite) ⟨hfinished, hP⟩

theorem yields_notify {notice : Notice} : scene.Yields s (Build.notify notice) fun _ _ => True :=
  yields_modify (.notify notice) (asFinished_of_types rfl) trivial

theorem yields_addProperty {property : Property} (hknown : s.graph.Knows property)
    (hstep : property.InStep scene.allowed) : scene.Yields s (Build.addProperty property) fun id s' =>
      s'.graph.HasProperty id ∧ s'.graph.property id = property :=
  ends_of_runs (Build.runs_addProperty.2 ⟨rfl, rfl⟩) (.single (.add hknown hstep))
    ⟨asFinished_of_types rfl, Session.hasProperty_addProperty _ _, Graph.property_addProperty _ _⟩

theorem yields_addTypeProperty {type : TypeId} {id : PropertyId} (h : s.graph.HasProperty id) :
    scene.Yields s (Build.addTypeProperty type id) fun _ _ => True :=
  yields_modify (.enlist type h) (asFinished_modifyType s type fun _ => rfl) trivial

theorem yields_addTypeCheck {type : TypeId} {check : Check} (h : s.graph.KnowsCheck check) :
    scene.Yields s (Build.addTypeCheck type check) fun _ _ => True :=
  yields_modify (.demand type h) (asFinished_modifyType s type fun _ => rfl) trivial

theorem yields_describeType {type : TypeId} {text : String} :
    scene.Yields s (Build.modifyType type fun entry => { entry with description := some text }) fun _ _ => True :=
  yields_modify (.describe type text) (asFinished_modifyType s type fun _ => rfl) trivial

theorem yields_relax {id : PropertyId} (h : (s.graph.property id).required = true) :
    scene.Yields s (Build.modifyProperty id Property.relax) fun _ _ => True :=
  yields_modify (.relax h) (asFinished_of_types rfl) trivial

theorem yields_setDefinition {key : DefinitionKey} {definition : Definition} (h : s.KnowsDefinition definition) :
    scene.Yields s (modify fun session : Session => session.setDefinition key definition) fun _ s' =>
      s'.graph = s.graph :=
  yields_modify (.define key h) (asFinished_of_types rfl) rfl

end Scene
end Building
end SchemaTypes

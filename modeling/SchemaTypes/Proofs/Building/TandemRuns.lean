import SchemaTypes.Proofs.Building.Collapse
import SchemaTypes.Proofs.Building.Tandem
/-!
# Runs in tandem

`Tandem.Goes C x y Q`: from any two sessions, either both computations succeed or neither does, and if both do their
results are as `Q` says.  `C` tells whether the runs are in step so far: if so, the graphs correspond, and in the end
they still do unless a type has been redirected.  Whether building succeeds must not depend on that, so `Q` speaks both
of what holds anyhow and of what holds while the runs are in step.
-/
namespace SchemaTypes

theorem rel_mono {α β : Type} {r s : α → β → Prop} (hrs : ∀ a b, r a b → s a b) {x : Option α} {y : Option β}
    (h : Option.Rel r x y) : Option.Rel s x y := by
  cases h with
  | none => exact .none
  | some h => exact .some (hrs _ _ h)

theorem rel_and_eq {α β : Type} {r : α → β → Prop} {x : Option α} {y : Option β} (h : Option.Rel r x y) :
    Option.Rel (fun a b => r a b ∧ x = some a ∧ y = some b) x y := by
  cases h with
  | none => exact .none
  | some h => exact .some ⟨h, rfl, rfl⟩

namespace Build

variable {α β : Type} {config : Config} {s s' : Session} {x : Build α} {f : α → Build β} {a : α}

/-- Where a computation ends and with what, if it succeeds. -/
def outcome (x : Build α) (config : Config) (s : Session) : Option (α × Session) :=
  match ((x.run config).run).run s with
  | (.ok a, s') => some (a, s')
  | (.error _, _) => none

theorem outcome_eq_some_iff : x.outcome config s = some (a, s') ↔ x.Runs config s a s' := by
  unfold outcome Runs
  cases ((x.run config).run).run s with
  | mk result m =>
    cases result with
    | ok b =>
      constructor
      · rintro ⟨⟩
        rfl
      · rintro ⟨⟩
        rfl
    | error halt => exact ⟨nofun, nofun⟩

theorem Runs.outcome (h : x.Runs config s a s') : x.outcome config s = some (a, s') := outcome_eq_some_iff.2 h

theorem outcome_eq_none_iff : x.outcome config s = none ↔ ∀ a s', ¬ x.Runs config s a s' := by
  rw [Option.eq_none_iff_forall_ne_some]
  exact ⟨fun h a s' hrun => h _ hrun.outcome, fun h r hr => h r.1 r.2 (outcome_eq_some_iff.1 hr)⟩

theorem outcome_bind (x : Build α) (f : α → Build β) :
    (x >>= f).outcome config s = x.outcome config s >>= fun r => (f r.1).outcome config r.2 := by
  unfold outcome
  rw [run_bind]
  cases ((x.run config).run).run s with
  | mk result m => cases result <;> rfl

/-- Related outcomes are of runs that both succeed or both fail. -/
theorem outcomes_of_rel {r : α × Session → β × Session → Prop} {y : Build β} {s₁ s₂ : Session}
    (h : Option.Rel r (x.outcome config s₁) (y.outcome config s₂)) :
    (∃ a m b n, x.Runs config s₁ a m ∧ y.Runs config s₂ b n ∧ r (a, m) (b, n)) ∨
      ((∀ a m, ¬ x.Runs config s₁ a m) ∧ ∀ b n, ¬ y.Runs config s₂ b n) := by
  cases hx : x.outcome config s₁ with
  | none =>
    rw [hx] at h
    cases hy : y.outcome config s₂ with
    | none => exact Or.inr ⟨outcome_eq_none_iff.1 hx, outcome_eq_none_iff.1 hy⟩
    | some => rw [hy] at h; cases h
  | some first =>
    rw [hx] at h
    cases hy : y.outcome config s₂ with
    | none => rw [hy] at h; cases h
    | some second =>
      rw [hy] at h
      cases h with
      | some h => exact Or.inl ⟨_, _, _, _, outcome_eq_some_iff.1 hx, outcome_eq_some_iff.1 hy, h⟩

theorem exists_runs_of_not_halts (h : ∀ halt s', ¬ x.Halts config s halt s') : ∃ a s', x.Runs config s a s' := by
  unfold Halts at h
  unfold Runs
  cases hrun : ((x.run config).run).run s with
  | mk result m =>
    cases result with
    | ok a => exact ⟨a, m, rfl⟩
    | error halt => exact absurd hrun (h halt m)

end Build

/-! ## What a part of a run leaves as it is -/

/-- Ids, names, redirects, documents and definitions stay; what is added comes behind. -/
structure Session.Calm (s s' : Session) : Prop where
  grows : s.graph.Grows s'.graph
  documents : s'.documents = s.documents
  definitions : s'.definitions = s.definitions
  names : ∀ id, s.graph.HasProperty id → (s'.graph.property id).name = (s.graph.property id).name
  redirects : ∀ id, (s'.graph.entry id).redirect = none → (s.graph.entry id).redirect = none

namespace Session.Calm

variable {s s' s'' : Session} {graph : Graph}

theorem refl (s : Session) : s.Calm s := ⟨.refl _, rfl, rfl, fun _ _ => rfl, fun _ h => h⟩

theorem trans (h : s.Calm s') (h' : s'.Calm s'') : s.Calm s'' where
  grows := h.grows.trans h'.grows
  documents := h'.documents.trans h.documents
  definitions := h'.definitions.trans h.definitions
  names id hid := (h'.names id (hid.grows h.grows)).trans (h.names id hid)
  redirects id hid := h.redirects id (h'.redirects id hid)

theorem addProperty (s : Session) (property : Property) : s.Calm { s with graph := (s.graph.addProperty property).2 } :=
  ⟨grows_addProperty _ _, rfl, rfl, fun _ hid => congrArg Property.name (Graph.property_addProperty_of_lt _ _ hid),
    fun _ h => h⟩

theorem modifyProperty (s : Session) (id : PropertyId) {f : Property → Property}
    (hf : ∀ property, (f property).name = property.name) :
    s.Calm { s with graph := s.graph.modifyProperty id f } :=
  ⟨grows_modifyProperty _ _ _, rfl, rfl, fun _ hid => (Build.hasProperty_modifyProperty id hid hf).2, fun _ h => h⟩

theorem modifyType (s : Session) (id : TypeId) {f : ObjectType → ObjectType}
    (hf : ∀ entry, (f entry).redirect = none → entry.redirect = none) :
    s.Calm { s with graph := s.graph.modifyType id f } := by
  refine ⟨grows_modifyType _ _ _, rfl, rfl, fun _ _ => rfl, fun other hother => ?_⟩
  simp only [entry_modifyType_eq] at hother
  split at hother
  · exact hf _ hother
  · exact hother

theorem reserve (s : Session) (namespaceName className : String) (isRoot : Bool) :
    s.Calm { s with graph := (s.graph.reserve namespaceName className isRoot).2 } := by
  refine ⟨grows_reserve _ _ _ _, rfl, rfl, fun _ _ => rfl, fun id hid => ?_⟩
  simp only [entry_reserve_eq] at hid
  split at hid
  · rename_i heq
    rw [entry_of_le (Nat.le_of_eq heq.symm)]
    rfl
  · exact hid

theorem finish {config : Config} {id target : TypeId} (h : (Building.finish id).Runs config s target s') :
    s.Calm s' := by
  obtain ⟨redirect, _, hdocuments, hdefinitions, hgraph⟩ := runs_finish h
  have hmodified := modifyType s id (f := fun entry =>
    { entry with signature := some (s.graph.signature id), redirect := redirect <|> entry.redirect })
    fun entry hnone => by
      simp only at hnone
      cases redirect with
      | none => exact hnone
      | some => cases hnone
  refine ⟨?_, hdocuments, hdefinitions, ?_, ?_⟩
  · rw [hgraph]
    exact hmodified.grows
  · rw [hgraph]
    exact hmodified.names
  · rw [hgraph]
    exact hmodified.redirects

end Session.Calm

namespace Building

/-- The references lead, from the document, to the definitions from before, and these are built. -/
def Ground.ServedIn (ground : Ground) (place : String) (s : Session) : Prop :=
  ∀ reference definition, ground.leads reference definition →
    ∃ target, targetIn? s.documents place reference = some target ∧ s.definition? target.key = some (.built definition)

theorem Ground.ServedIn.calm {ground : Ground} {place : String} {s m : Session} (h : ground.ServedIn place s)
    (hcalm : s.Calm m) : ground.ServedIn place m := by
  intro reference definition hleads
  obtain ⟨target, htarget, hbuilt⟩ := h reference definition hleads
  exact ⟨target, hcalm.documents ▸ htarget, (congrArg (List.lookup _) hcalm.definitions).trans hbuilt⟩

theorem Ground.empty_servedIn (place : String) (s : Session) : Ground.empty.ServedIn place s :=
  fun _ _ => False.elim

namespace Tandem

open Build

/-- Both sessions hold the definitions that the references are to. -/
structure Serves (t : Tandem) (s₁ s₂ : Session) : Prop where
  first : t.ground.ServedIn t.places.1 s₁
  second : t.ground.ServedIn t.places.2 s₂

/-- No type that either run has made is redirected. -/
structure Straight (t : Tandem) (g h : Graph) : Prop where
  first : ∀ id : TypeId, t.types.1 ≤ id.index → (g.entry id).redirect = none
  second : ∀ id : TypeId, t.types.2 ≤ id.index → (h.entry id).redirect = none

/-- From two sessions to two later ones, and whether the runs are in step there. -/
structure Between (t : Tandem) (C : Prop) (s₁ s₂ : Session) (C' : Prop) (m₁ m₂ : Session) : Prop where
  implies : C' → C
  kept : C → t.Straight m₁.graph m₂.graph → C'
  coupled : C' → t.Coupled m₁.graph m₂.graph
  first : s₁.Calm m₁
  second : s₂.Calm m₂

variable {t : Tandem} {α β γ δ ε : Type} {C C' C'' : Prop} {s₁ s₂ m₁ m₂ m₁' m₂' : Session} {x : Build α} {y : Build β}
  {f : α → Build γ} {g : β → Build δ} {Q : Prop → α → β → Prop} {R : Prop → γ → δ → Prop} {a : α} {b : β}

/-- From these two sessions. -/
def GoesAt (t : Tandem) (C : Prop) (s₁ s₂ : Session) (x : Build α) (y : Build β) (Q : Prop → α → β → Prop) : Prop :=
  Option.Rel (fun r₁ r₂ => ∃ C', t.Between C s₁ s₂ C' r₁.2 r₂.2 ∧ Q C' r₁.1 r₂.1) (x.outcome t.config s₁)
    (y.outcome t.config s₂)

/-- From any two sessions that serve the references. -/
def Goes (t : Tandem) (C : Prop) (x : Build α) (y : Build β) (Q : Prop → α → β → Prop) : Prop :=
  ∀ s₁ s₂, t.Serves s₁ s₂ → (C → t.Coupled s₁.graph s₂.graph) → t.GoesAt C s₁ s₂ x y Q

/-- What redirects nothing and keeps the graphs in correspondence. -/
theorem Between.same (h : C → t.Coupled m₁.graph m₂.graph) (h₁ : s₁.Calm m₁) (h₂ : s₂.Calm m₂) :
    t.Between C s₁ s₂ C m₁ m₂ := ⟨fun hC => hC, fun hC _ => hC, h, h₁, h₂⟩

theorem Between.refl (h : C → t.Coupled s₁.graph s₂.graph) : t.Between C s₁ s₂ C s₁ s₂ := .same h (.refl _) (.refl _)

theorem Straight.earlier (h : t.Straight m₁.graph m₂.graph) (h₁ : s₁.Calm m₁) (h₂ : s₂.Calm m₂) :
    t.Straight s₁.graph s₂.graph :=
  ⟨fun id hid => h₁.redirects id (h.first id hid), fun id hid => h₂.redirects id (h.second id hid)⟩

theorem Between.trans (h : t.Between C s₁ s₂ C' m₁ m₂) (h' : t.Between C' m₁ m₂ C'' m₁' m₂') :
    t.Between C s₁ s₂ C'' m₁' m₂' where
  implies hC := h.implies (h'.implies hC)
  kept hC hstraight := h'.kept (h.kept hC (hstraight.earlier h'.first h'.second)) hstraight
  coupled := h'.coupled
  first := h.first.trans h'.first
  second := h.second.trans h'.second

theorem Between.serves (h : t.Between C s₁ s₂ C' m₁ m₂) (hserves : t.Serves s₁ s₂) : t.Serves m₁ m₂ :=
  ⟨hserves.first.calm h.first, hserves.second.calm h.second⟩

/-! ## Sequences -/

theorem goesAt_of_runs (hx : x.Runs t.config s₁ a m₁) (hy : y.Runs t.config s₂ b m₂)
    (h : t.Between C s₁ s₂ C' m₁ m₂) (hQ : Q C' a b) : t.GoesAt C s₁ s₂ x y Q := by
  unfold GoesAt
  rw [hx.outcome, hy.outcome]
  exact .some ⟨C', h, hQ⟩

theorem GoesAt.imp {Q' : Prop → α → β → Prop} (h : t.GoesAt C s₁ s₂ x y Q)
    (hQQ' : ∀ C' a b, (C' → C) → Q C' a b → Q' C' a b) : t.GoesAt C s₁ s₂ x y Q' :=
  rel_mono (fun _ _ ⟨C', hbetween, hQ⟩ => ⟨C', hbetween, hQQ' C' _ _ hbetween.implies hQ⟩) h

/-- The results, and what is known of runs of the first computation anyhow. -/
theorem GoesAt.told {q : α → Session → Prop} (h : t.GoesAt C s₁ s₂ x y Q)
    (hx : ∀ a m, x.Runs t.config s₁ a m → q a m) :
    t.GoesAt C s₁ s₂ x y fun C' a b => Q C' a b ∧ ∃ m, q a m :=
  rel_mono (fun r₁ _ ⟨⟨C', hbetween, hQ⟩, hxrun, _⟩ =>
    ⟨C', hbetween, hQ, r₁.2, hx r₁.1 r₁.2 (outcome_eq_some_iff.1 hxrun)⟩) (rel_and_eq h)

theorem GoesAt.bind (hx : t.GoesAt C s₁ s₂ x y Q)
    (hf : ∀ C' a b m₁ m₂, t.Between C s₁ s₂ C' m₁ m₂ → x.Runs t.config s₁ a m₁ → y.Runs t.config s₂ b m₂ →
      Q C' a b → t.GoesAt C' m₁ m₂ (f a) (g b) R) : t.GoesAt C s₁ s₂ (x >>= f) (y >>= g) R := by
  unfold GoesAt
  rw [outcome_bind, outcome_bind]
  refine rel_bind (rel_and_eq hx) fun r₁ r₂ ⟨⟨C', hbetween, hQ⟩, hxrun, hyrun⟩ => ?_
  have hrest := hf C' r₁.1 r₂.1 r₁.2 r₂.2 hbetween (outcome_eq_some_iff.1 hxrun) (outcome_eq_some_iff.1 hyrun) hQ
  exact rel_mono (fun _ _ ⟨C'', hlater, hR⟩ => ⟨C'', hbetween.trans hlater, hR⟩) hrest

/-- Both succeed, or neither. -/
theorem GoesAt.cases {α β : Type} {x : Build α} {y : Build β} {Q : Prop → α → β → Prop} (h : t.GoesAt C s₁ s₂ x y Q) :
    (∃ a b m₁ m₂ C', x.Runs t.config s₁ a m₁ ∧ y.Runs t.config s₂ b m₂ ∧ t.Between C s₁ s₂ C' m₁ m₂ ∧ Q C' a b) ∨
      ((∀ a m, ¬ x.Runs t.config s₁ a m) ∧ ∀ b m, ¬ y.Runs t.config s₂ b m) := by
  rcases outcomes_of_rel h with ⟨a, m₁, b, m₂, hx, hy, C', hbetween, hQ⟩ | hnot
  · exact Or.inl ⟨a, b, m₁, m₂, C', hx, hy, hbetween, hQ⟩
  · exact Or.inr hnot

/-- A run that goes in tandem with itself is calm. -/
theorem Goes.calm {x : Build α} {Q : Prop → α → α → Prop} {s m : Session} (h : t.Goes C x x Q) (hserves : t.Serves s s)
    (hcoupled : C → t.Coupled s.graph s.graph) (hrun : x.Runs t.config s a m) : s.Calm m := by
  rcases (h s s hserves hcoupled).cases with ⟨_, _, _, _, _, hfirst, _, hbetween, _⟩ | ⟨hnot, _⟩
  · obtain ⟨rfl, rfl⟩ := hfirst.unique hrun
    exact hbetween.first
  · exact absurd hrun (hnot _ _)

theorem Goes.imp {Q' : Prop → α → β → Prop} (h : t.Goes C x y Q)
    (hQQ' : ∀ C' a b, (C' → C) → Q C' a b → Q' C' a b) : t.Goes C x y Q' :=
  fun s₁ s₂ hserves hcoupled => (h s₁ s₂ hserves hcoupled).imp hQQ'

theorem Goes.bind (hx : t.Goes C x y Q) (hf : ∀ C' a b, (C' → C) → Q C' a b → t.Goes C' (f a) (g b) R) :
    t.Goes C (x >>= f) (y >>= g) R :=
  fun s₁ s₂ hserves hcoupled => (hx s₁ s₂ hserves hcoupled).bind fun C' a b m₁ m₂ hbetween _ _ hQ =>
    hf C' a b hbetween.implies hQ m₁ m₂ (hbetween.serves hserves) hbetween.coupled

/-- First parts whose results do not matter. -/
theorem Goes.andThen (hx : t.Goes C x y Q) (hf : ∀ C' a b, (C' → C) → t.Goes C' (f a) (g b) R) :
    t.Goes C (x >>= f) (y >>= g) R := hx.bind fun C' a b hC _ => hf C' a b hC

/-- First parts that read the same. -/
theorem Goes.read {z z' : Build α} {g : α → Build δ} (hz : t.Goes C z z' fun _ => Eq)
    (hf : ∀ C' a, (C' → C) → t.Goes C' (f a) (g a) R) : t.Goes C (z >>= f) (z' >>= g) R :=
  hz.bind fun C' a _ hC heq => heq ▸ hf C' a hC

theorem goesAt_pure (hcoupled : C → t.Coupled s₁.graph s₂.graph) (h : Q C a b) :
    t.GoesAt C s₁ s₂ (pure a) (pure b) Q :=
  goesAt_of_runs (runs_pure.2 ⟨rfl, rfl⟩) (runs_pure.2 ⟨rfl, rfl⟩) (.refl hcoupled) h

theorem goes_pure (h : Q C a b) : t.Goes C (pure a) (pure b) Q := fun _ _ _ hcoupled => goesAt_pure hcoupled h

theorem goes_refuse {fault fault' : SchemaFault} : t.Goes C (refuse fault) (refuse fault') Q := fun _ _ _ _ => .none

theorem goes_malformed {name name' reason reason' : String} :
    t.Goes C (malformed name reason) (malformed name' reason') Q := goes_refuse

/-- What does not look at the session is the same for both runs. -/
theorem goes_detached {z : Build α} (h : Detached z) : t.Goes C z z fun _ => Eq := by
  intro s₁ s₂ _ hcoupled
  obtain ⟨result, _, hresult⟩ := h t.config
  cases result with
  | ok a => exact goesAt_of_runs (hresult s₁) (hresult s₂) (.refl hcoupled) rfl
  | error halt =>
    have hnone : ∀ s, z.outcome t.config s = none := fun s => by
      unfold outcome
      rw [hresult s]
    unfold GoesAt
    rw [hnone, hnone]
    exact .none

/-! ## Loops -/

theorem goes_mapM {r : α → β → Prop} {f : ε → Build α} {g : ε → Build β} : ∀ {l : List ε} {C : Prop},
    (∀ e ∈ l, ∀ C', (C' → C) → t.Goes C' (f e) (g e) fun C'' a b => C'' → r a b) →
      t.Goes C (l.mapM f) (l.mapM g) fun C' as bs => C' → List.Forall₂ r as bs
  | [], _, _ => by
    rw [List.mapM_nil, List.mapM_nil]
    exact goes_pure fun _ => .nil
  | e :: l, C, h => by
    rw [List.mapM_cons, List.mapM_cons]
    refine (h e List.mem_cons_self C id).bind fun C' a b hC hab => ?_
    have hrest : t.Goes C' (l.mapM f) (l.mapM g) fun C'' as bs => C'' → List.Forall₂ r as bs :=
      goes_mapM fun e he C'' hC'' => h e (List.mem_cons_of_mem _ he) C'' fun hc => hC (hC'' hc)
    exact hrest.bind fun C'' as bs hC'' habs => goes_pure fun hc => .cons (hab (hC'' hc)) (habs hc)

theorem goes_foldlM {r : Prop → α → β → Prop} {f : α → ε → Build α} {g : β → ε → Build β} :
    ∀ {l : List ε} {C : Prop} {a : α} {b : β}, r C a b →
      (∀ e ∈ l, ∀ C' a b, (C' → C) → r C' a b → t.Goes C' (f a e) (g b e) r) →
        t.Goes C (l.foldlM f a) (l.foldlM g b) r
  | [], _, _, _, hab, _ => by
    rw [List.foldlM_nil, List.foldlM_nil]
    exact goes_pure hab
  | e :: l, C, a, b, hab, h => by
    rw [List.foldlM_cons, List.foldlM_cons]
    refine (h e List.mem_cons_self C a b id hab).bind fun C' a b hC hab => ?_
    exact goes_foldlM hab fun e he C'' a b hC'' => h e (List.mem_cons_of_mem _ he) C'' a b fun hc => hC (hC'' hc)

theorem goes_forM {f g : ε → Build Unit} : ∀ {l : List ε} {C : Prop},
    (∀ e ∈ l, ∀ C', (C' → C) → t.Goes C' (f e) (g e) fun _ _ _ => True) →
      t.Goes C (l.forM f) (l.forM g) fun _ _ _ => True
  | [], _, _ => goes_pure trivial
  | e :: l, C, h => by
    change t.Goes C (f e >>= fun _ => l.forM f) (g e >>= fun _ => l.forM g) _
    refine (h e List.mem_cons_self C id).andThen fun C' _ _ hC => ?_
    exact goes_forM fun e he C'' hC'' => h e (List.mem_cons_of_mem _ he) C'' fun hc => hC (hC'' hc)

/-- A loop without a state of its own, which goes through the whole list. -/
theorem goes_forIn {f g : ε → PUnit → Build (ForInStep PUnit)} : ∀ {l : List ε} {C : Prop},
    (∀ e ∈ l, ∀ C', (C' → C) → t.Goes C' (f e ⟨⟩) (g e ⟨⟩) fun _ a b => a = .yield ⟨⟩ ∧ b = .yield ⟨⟩) →
      t.Goes C (forIn l ⟨⟩ f) (forIn l ⟨⟩ g) fun _ _ _ => True
  | [], _, _ => by
    rw [List.forIn_nil, List.forIn_nil]
    exact goes_pure trivial
  | e :: l, C, h => by
    rw [List.forIn_cons, List.forIn_cons]
    refine (h e List.mem_cons_self C id).bind fun C' a b hC hab => ?_
    rw [hab.1, hab.2]
    exact goes_forIn fun e he C'' hC'' => h e (List.mem_cons_of_mem _ he) C'' fun hc => hC (hC'' hc)

theorem goes_option_mapM {r : α → β → Prop} {f : ε → Build α} {g : ε → Build β} {o : Option ε}
    (h : ∀ e ∈ o, t.Goes C (f e) (g e) fun C' a b => C' → r a b) :
    t.Goes C (o.mapM f) (o.mapM g) fun C' a b => C' → Option.Rel r a b := by
  cases o with
  | none => exact goes_pure fun _ => .none
  | some e => exact (h e rfl).bind fun C' a b _ hab => goes_pure fun hC => .some (hab hC)

/-! ## Writes -/

theorem goesAt_graph_bind {f : Graph → Build α} {g : Graph → Build β}
    (h : t.GoesAt C s₁ s₂ (f s₁.graph) (g s₂.graph) Q) : t.GoesAt C s₁ s₂ (Build.graph >>= f) (Build.graph >>= g) Q := h

/-- What comes after looking at the graph is about corresponding graphs. -/
theorem goes_graph_bind {f : Graph → Build α} {g : Graph → Build β}
    (h : ∀ graph graph', (C → t.Coupled graph graph') → t.Goes C (f graph) (g graph') Q) :
    t.Goes C (Build.graph >>= f) (Build.graph >>= g) Q :=
  fun s₁ s₂ hserves hcoupled => goesAt_graph_bind (h _ _ hcoupled s₁ s₂ hserves hcoupled)

/-- The same change on both sides, after which the graphs still correspond. -/
theorem goesAt_modifyGraph {F G : Graph → Graph} (hcoupled : C → t.Coupled (F s₁.graph) (G s₂.graph))
    (h₁ : s₁.Calm { s₁ with graph := F s₁.graph }) (h₂ : s₂.Calm { s₂ with graph := G s₂.graph }) :
    t.GoesAt C s₁ s₂ (modifyGraph F) (modifyGraph G) fun _ _ _ => True :=
  goesAt_of_runs (a := ()) (b := ()) (runs_modifyGraph.2 rfl) (runs_modifyGraph.2 rfl)
    (.same hcoupled h₁ h₂) trivial

theorem goesAt_addProperty {p q : Property} (hcoupled : C → t.Coupled s₁.graph s₂.graph) (h : C → t.Kin p q) :
    t.GoesAt C s₁ s₂ (Build.addProperty p) (Build.addProperty q) fun C' i j => C' → t.Ids i j :=
  goesAt_of_runs (runs_addProperty.2 ⟨rfl, rfl⟩) (runs_addProperty.2 ⟨rfl, rfl⟩)
    (.same (fun hC => (hcoupled hC).addProperty (h hC)) (.addProperty s₁ p) (.addProperty s₂ q))
    fun hC => (hcoupled hC).properties

theorem goes_addProperty {p q : Property} (h : C → t.Kin p q) :
    t.Goes C (Build.addProperty p) (Build.addProperty q) fun C' i j => C' → t.Ids i j :=
  fun _ _ _ hcoupled => goesAt_addProperty hcoupled h

theorem goes_modifyProperty {i j : PropertyId} (hij : C → t.Ids i j) {F : Property → Property}
    (hname : ∀ property, (F property).name = property.name) (hkin : ∀ p q, t.Kin p q → t.Kin (F p) (F q)) :
    t.Goes C (Build.modifyProperty i F) (Build.modifyProperty j F) fun _ _ _ => True :=
  fun s₁ s₂ _ hcoupled => goesAt_modifyGraph (fun hC => (hcoupled hC).modifyProperty (hij hC) hname hkin)
    (.modifyProperty s₁ i hname) (.modifyProperty s₂ j hname)

theorem goesAt_modifyType {k l : TypeId} (hkl : C → t.Types k l) {F G : ObjectType → ObjectType}
    (hcoupled : C → t.Coupled s₁.graph s₂.graph) (hF : ∀ entry, (F entry).redirect = none → entry.redirect = none)
    (hG : ∀ entry, (G entry).redirect = none → entry.redirect = none)
    (hentries : C → ∀ e e', t.Entries s₁.graph s₂.graph e e' → t.Entries s₁.graph s₂.graph (F e) (G e')) :
    t.GoesAt C s₁ s₂ (Build.modifyType k F) (Build.modifyType l G) fun _ _ _ => True :=
  goesAt_modifyGraph (fun hC => (hcoupled hC).modifyType (hkl hC) (hentries hC _ _)) (.modifyType s₁ k hF)
    (.modifyType s₂ l hG)

theorem goes_addTypeCheck {k l : TypeId} (hkl : C → t.Types k l) {c d : Check} (hsame : C → t.Same c d) :
    t.Goes C (Build.addTypeCheck k c) (Build.addTypeCheck l d) fun _ _ _ => True :=
  fun _ _ _ hcoupled => goesAt_modifyType hkl hcoupled (fun _ h => h) (fun _ h => h) fun hC _ _ he =>
    ⟨he.members, he.validators.add (hsame hC).peer, he.redirect⟩

theorem goes_notify {notice notice' : Notice} :
    t.Goes C (notify notice) (notify notice') fun _ _ _ => True :=
  fun _ _ _ hcoupled => goesAt_of_runs (a := ()) (b := ()) (runs_modify.2 rfl) (runs_modify.2 rfl)
    (.same hcoupled ⟨.refl _, rfl, rfl, fun _ _ => rfl, fun _ h => h⟩
      ⟨.refl _, rfl, rfl, fun _ _ => rfl, fun _ h => h⟩) trivial

/-! ## Types -/

/-- A type is there as soon as it is reserved. -/
theorem goes_reserve_bind {u u' v v' : String} {w w' : Bool} {f : TypeId → Build α} {g : TypeId → Build β}
    (h : ∀ m₁ m₂ : Session, t.Serves m₁ m₂ → (C → t.Coupled m₁.graph m₂.graph) → ∀ k l : TypeId, (C → t.Types k l) →
      m₁.graph.HasType k → (∃ graph : Graph, (m₁.graph.entry k).name = graph.freeName u v) →
      (∃ graph : Graph, (m₂.graph.entry l).name = graph.freeName u' v') → t.GoesAt C m₁ m₂ (f k) (g l) Q) :
    t.Goes C (Build.reserve u v w >>= f) (Build.reserve u' v' w' >>= g) Q := by
  intro s₁ s₂ hserves hcoupled
  have hreserve : t.GoesAt C s₁ s₂ (Build.reserve u v w) (Build.reserve u' v' w')
      fun C' k l => C' = C ∧ k = ⟨s₁.graph.types.size⟩ ∧ l = ⟨s₂.graph.types.size⟩ :=
    goesAt_of_runs (runs_reserve.2 ⟨rfl, rfl⟩) (runs_reserve.2 ⟨rfl, rfl⟩)
      (.same (fun hC => (hcoupled hC).reserve u v w u' v' w') (.reserve s₁ u v w) (.reserve s₂ u' v' w'))
      ⟨rfl, rfl, rfl⟩
  refine hreserve.bind fun C' k l m₁ m₂ hbetween hrun hrun' hids => ?_
  obtain ⟨rfl, rfl, rfl⟩ := hids
  obtain ⟨_, rfl⟩ := runs_reserve.1 hrun
  obtain ⟨_, rfl⟩ := runs_reserve.1 hrun'
  refine h _ _ (hbetween.serves hserves) hbetween.coupled _ _ (fun hC => (hcoupled hC).types) ?_ ⟨s₁.graph, ?_⟩
    ⟨s₂.graph, ?_⟩
  · simp [Graph.HasType, Graph.reserve]
  · rw [Session.entry_reserve_eq, if_pos rfl]
  · rw [Session.entry_reserve_eq, if_pos rfl]

/-- The type that finishing answers is the finished one, unless that is redirected. -/
theorem target_of_straight {s m : Session} {id target : TypeId} {text : String} (h : s.Concludes id text target m)
    (hid : s.graph.HasType id) (hnone : (m.graph.entry id).redirect = none) :
    target = id ∧ m.graph = Session.signing s.graph id text := by
  cases h with
  | kept => exact ⟨rfl, rfl⟩
  | first => exact ⟨rfl, rfl⟩
  | duplicate =>
    simp only at hnone
    rw [Session.entry_modifyType _ _ hid] at hnone
    cases hnone

theorem goesAt_finish {k l : TypeId} (hkl : C → t.Types k l) (hcoupled : C → t.Coupled s₁.graph s₂.graph)
    (hk : s₁.graph.HasType k) :
    t.GoesAt C s₁ s₂ (finish k) (finish l) fun C' i j => C' → t.Types i j := by
  have hends : ∀ (id : TypeId) (s : Session), ∃ target m, (finish id).Runs t.config s target m :=
    fun _ _ => exists_runs_of_not_halts fun _ _ => Scene.not_halts_finish
  obtain ⟨i, m₁, hrun⟩ := hends k s₁
  obtain ⟨j, m₂, hrun'⟩ := hends l s₂
  have hin : C ∧ t.Straight m₁.graph m₂.graph → i = k ∧ j = l ∧
      m₁.graph = Session.signing s₁.graph k (s₁.graph.signature k) ∧
        m₂.graph = Session.signing s₂.graph l (s₂.graph.signature l) := by
    rintro ⟨hC, hstraight⟩
    obtain ⟨n, hk', hl'⟩ := hkl hC
    obtain ⟨hi, hm₁⟩ := target_of_straight (Session.concludes_finish hrun) hk
      (hstraight.first k (hk' ▸ Nat.le_add_right _ _))
    obtain ⟨hj, hm₂⟩ := target_of_straight (Session.concludes_finish hrun')
      (((hcoupled hC).hasType_iff (Or.inl (hkl hC))).1 hk) (hstraight.second l (hl' ▸ Nat.le_add_right _ _))
    exact ⟨hi, hj, hm₁, hm₂⟩
  have hbetween : t.Between C s₁ s₂ (C ∧ t.Straight m₁.graph m₂.graph) m₁ m₂ := by
    refine ⟨And.left, fun hC hstraight => ⟨hC, hstraight⟩, fun hC => ?_, .finish hrun, .finish hrun'⟩
    obtain ⟨_, _, hm₁, hm₂⟩ := hin hC
    rw [hm₁, hm₂]
    exact (hcoupled hC.1).modifyType (hkl hC.1) fun he => ⟨he.members, he.validators, he.redirect⟩
  refine goesAt_of_runs hrun hrun' hbetween fun hC => ?_
  obtain ⟨rfl, rfl, _, _⟩ := hin hC
  exact hkl hC.1

end Tandem
end Building
end SchemaTypes

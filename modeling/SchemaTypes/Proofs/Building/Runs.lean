import SchemaTypes.Building.Session
/-!
# Runs of the building monad

`Runs x config s a s'`: from the session `s`, `x` ends with `a` in the session `s'`.  A run of a
sequence comes apart into the runs of its parts (`runs_bind`), and a fault has none, so facts about
successful runs are read off part by part.  `Halts` is the other outcome: a sequence halts where its first
part halts, or where the rest does after it (`halts_bind`).
-/
namespace SchemaTypes.Build

/-- The computation succeeds. -/
def Runs {α : Type} (x : Build α) (config : Config) (s : Session) (a : α) (s' : Session) : Prop :=
  ((x.run config).run).run s = (.ok a, s')

variable {α β : Type} {config : Config} {s s' : Session}

theorem runs_pure {a b : α} : Runs (pure a) config s b s' ↔ b = a ∧ s' = s := by
  unfold Runs
  constructor
  · intro h
    cases h
    exact ⟨rfl, rfl⟩
  · rintro ⟨rfl, rfl⟩
    rfl

theorem run_bind (x : Build α) (f : α → Build β) (config : Config) (s : Session) :
    (((x >>= f).run config).run).run s =
      match ((x.run config).run).run s with
      | (.ok a, m) => (((f a).run config).run).run m
      | (.error fault, m) => (.error fault, m) := by
  rw [ReaderT.run_bind, ExceptT.run_bind, StateT.run_bind]
  cases ((x.run config).run).run s with
  | mk result m => cases result <;> rfl

theorem runs_bind {x : Build α} {f : α → Build β} {b : β} :
    Runs (x >>= f) config s b s' ↔ ∃ a m, Runs x config s a m ∧ Runs (f a) config m b s' := by
  unfold Runs
  rw [run_bind]
  constructor
  · intro h
    cases hx : ((x.run config).run).run s with
    | mk result m =>
      rw [hx] at h
      cases result with
      | ok a => exact ⟨a, m, rfl, h⟩
      | error fault => cases h
  · rintro ⟨a, m, hx, hf⟩
    rw [hx]
    exact hf

/-- A first part with one successful run. -/
theorem runs_bind_of_iff {x : Build α} {f : α → Build β} {b : β} {v : α} {t : Session}
    (hx : ∀ a m, Runs x config s a m ↔ a = v ∧ m = t) :
    Runs (x >>= f) config s b s' ↔ Runs (f v) config t b s' := by
  rw [runs_bind]
  constructor
  · rintro ⟨a, m, ha, hf⟩
    obtain ⟨rfl, rfl⟩ := (hx a m).1 ha
    exact hf
  · intro hf
    exact ⟨v, t, (hx v t).2 ⟨rfl, rfl⟩, hf⟩

theorem runs_pure_bind {a : α} {f : α → Build β} {b : β} :
    Runs (pure a >>= f) config s b s' ↔ Runs (f a) config s b s' :=
  runs_bind_of_iff fun _ _ => runs_pure

theorem runs_map {x : Build α} {f : α → β} {b : β} :
    Runs (f <$> x) config s b s' ↔ ∃ a, Runs x config s a s' ∧ b = f a := by
  rw [map_eq_pure_bind, runs_bind]
  constructor
  · rintro ⟨a, m, hx, hb⟩
    obtain ⟨rfl, rfl⟩ := runs_pure.1 hb
    exact ⟨a, hx, rfl⟩
  · rintro ⟨a, hx, rfl⟩
    exact ⟨a, s', hx, runs_pure.2 ⟨rfl, rfl⟩⟩

theorem runs_get {a : Session} : Runs get config s a s' ↔ a = s ∧ s' = s := by
  unfold Runs
  constructor
  · intro h
    cases h
    exact ⟨rfl, rfl⟩
  · rintro ⟨rfl, rfl⟩
    rfl

theorem runs_read {a : Config} : Runs read config s a s' ↔ a = config ∧ s' = s := by
  unfold Runs
  constructor
  · intro h
    cases h
    exact ⟨rfl, rfl⟩
  · rintro ⟨rfl, rfl⟩
    rfl

theorem runs_modify {f : Session → Session} {u : PUnit} :
    Runs (modify f) config s u s' ↔ s' = f s := by
  unfold Runs
  constructor
  · intro h
    cases h
    rfl
  · rintro rfl
    rfl

theorem runs_get_bind {f : Session → Build β} {b : β} :
    Runs (get >>= f) config s b s' ↔ Runs (f s) config s b s' :=
  runs_bind_of_iff fun _ _ => runs_get

theorem runs_read_bind {f : Config → Build β} {b : β} :
    Runs (read >>= f) config s b s' ↔ Runs (f config) config s b s' :=
  runs_bind_of_iff fun _ _ => runs_read

theorem runs_modify_bind {g : Session → Session} {f : PUnit → Build β} {b : β} :
    Runs (modify g >>= f) config s b s' ↔ Runs (f ⟨⟩) config (g s) b s' :=
  runs_bind_of_iff fun _ _ => ⟨fun h => ⟨rfl, runs_modify.1 h⟩, fun h => runs_modify.2 h.2⟩

theorem not_runs_throw {halt : Halt} {a : α} : ¬ Runs (throw halt) config s a s' := by
  intro h
  cases h

theorem not_runs_refuse {fault : SchemaFault} {a : α} : ¬ Runs (refuse fault) config s a s' :=
  not_runs_throw

/-- Two successful runs from one session are the same. -/
theorem Runs.unique {x : Build α} {a b : α} {t t' : Session} (h : Runs x config s a t)
    (h' : Runs x config s b t') : a = b ∧ t = t' := by
  unfold Runs at h h'
  rw [h] at h'
  cases h'
  exact ⟨rfl, rfl⟩

/-! ## The graph -/

theorem runs_graph {graph : Graph} : Runs Build.graph config s graph s' ↔ graph = s.graph ∧ s' = s := by
  unfold Build.graph
  rw [runs_get_bind]
  exact runs_pure

theorem runs_graph_bind {f : Graph → Build β} {b : β} :
    Runs (Build.graph >>= f) config s b s' ↔ Runs (f s.graph) config s b s' :=
  runs_bind_of_iff fun _ _ => runs_graph

theorem runs_getProperty {id : PropertyId} {property : Property} :
    Runs (getProperty id) config s property s' ↔ property = s.graph.property id ∧ s' = s := by
  unfold getProperty
  rw [runs_graph_bind]
  exact runs_pure

theorem runs_addProperty {property : Property} {id : PropertyId} :
    Runs (addProperty property) config s id s' ↔
      id = (s.graph.addProperty property).1 ∧ s' = { s with graph := (s.graph.addProperty property).2 } := by
  unfold addProperty setGraph
  rw [runs_graph_bind]
  simp only
  rw [runs_modify_bind]
  exact runs_pure

theorem runs_reserve {namespaceName className : String} {isRoot : Bool} {id : TypeId} :
    Runs (reserve namespaceName className isRoot) config s id s' ↔
      id = (s.graph.reserve namespaceName className isRoot).1 ∧
        s' = { s with graph := (s.graph.reserve namespaceName className isRoot).2 } := by
  unfold reserve setGraph
  rw [runs_graph_bind]
  simp only
  rw [runs_modify_bind]
  exact runs_pure

theorem runs_modifyGraph {f : Graph → Graph} {u : Unit} :
    Runs (modifyGraph f) config s u s' ↔ s' = { s with graph := f s.graph } := runs_modify

theorem runs_allowsNull {required allowed : Bool} :
    Runs (allowsNull required) config s allowed s' ↔
      allowed = (config.settings.implicitNull && !required) ∧ s' = s := by
  unfold allowsNull
  rw [runs_read_bind]
  exact runs_pure

/-! ## Faults -/

/-- The computation stops, in the session it has got to. -/
def Halts {α : Type} (x : Build α) (config : Config) (s : Session) (halt : Halt) (s' : Session) : Prop :=
  ((x.run config).run).run s = (.error halt, s')

variable {halt : Halt}

theorem not_halts_pure {a : α} : ¬ Halts (pure a) config s halt s' := by
  intro h
  cases h

theorem halts_throw {other : Halt} :
    Halts (throw other : Build α) config s halt s' ↔ halt = other ∧ s' = s := by
  unfold Halts
  constructor
  · intro h
    cases h
    exact ⟨rfl, rfl⟩
  · rintro ⟨rfl, rfl⟩
    rfl

theorem Runs.not_halts {x : Build α} {a : α} {t : Session} (h : Runs x config s a t) :
    ¬ Halts x config s halt s' := by
  intro h'
  unfold Runs at h
  unfold Halts at h'
  rw [h] at h'
  cases h'

theorem halts_bind {x : Build α} {f : α → Build β} :
    Halts (x >>= f) config s halt s' ↔
      Halts x config s halt s' ∨ ∃ a m, Runs x config s a m ∧ Halts (f a) config m halt s' := by
  unfold Runs Halts
  rw [run_bind]
  cases hx : ((x.run config).run).run s with
  | mk result m =>
    cases result with
    | ok a =>
      constructor
      · exact fun h => Or.inr ⟨a, m, rfl, h⟩
      · rintro (h | ⟨b, t, h, hf⟩)
        · cases h
        · cases h
          exact hf
    | error fault =>
      constructor
      · intro h
        cases h
        exact Or.inl rfl
      · rintro (h | ⟨b, t, h, _⟩)
        · cases h
          rfl
        · cases h

/-- Behind a first part that succeeds, the rest halts. -/
theorem halts_bind_of_runs {x : Build α} {f : α → Build β} {v : α} {t : Session} (hx : Runs x config s v t) :
    Halts (x >>= f) config s halt s' ↔ Halts (f v) config t halt s' := by
  rw [halts_bind]
  constructor
  · rintro (h | ⟨a, m, ha, hf⟩)
    · exact absurd h hx.not_halts
    · obtain ⟨rfl, rfl⟩ := hx.unique ha
      exact hf
  · exact fun hf => Or.inr ⟨v, t, hx, hf⟩

theorem halts_get_bind {f : Session → Build β} :
    Halts (get >>= f) config s halt s' ↔ Halts (f s) config s halt s' :=
  halts_bind_of_runs (runs_get.2 ⟨rfl, rfl⟩)

theorem halts_modify_bind {g : Session → Session} {f : PUnit → Build β} :
    Halts (modify g >>= f) config s halt s' ↔ Halts (f ⟨⟩) config (g s) halt s' :=
  halts_bind_of_runs (runs_modify.2 rfl)

end SchemaTypes.Build

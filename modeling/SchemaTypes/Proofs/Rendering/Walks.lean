import Mathlib.Data.List.Basic
import Mathlib.Logic.Relation
import SchemaTypes.Proofs.Rendering.Endurance
/-!
# Walks through the children of checks

What a listing shows and what a type refers to is gathered by walking from property to property through the children
of checks.  Where such a walk leads is a matter of the graph alone (`Graph.Reaches`).  It may be taken in any order: a
walk keeps what it has come upon and what it has still to look at, each step looks at one pending property, and it puts
the children of a new one with the pending ones (`Walk.Step`).  However the graph is made, with cycles or without, no
walk goes on for ever (`wellFounded_step`), and one that is over has come upon all that is reached, each property once
(`Walk.mem_found_iff`).  `Graph.reachable` looks at the first pending property, and finds the same.
-/
namespace SchemaTypes

namespace Graph

variable {graph : Graph} {start other : List PropertyId} {id : PropertyId}

/-- The property is one to start from, or a child of one that is reached. -/
inductive Reaches (graph : Graph) (start : List PropertyId) : PropertyId → Prop where
  | start {id : PropertyId} (h : id ∈ start) : Reaches graph start id
  | child {id child : PropertyId} (h : Reaches graph start id) (hchild : child ∈ graph.children id) :
    Reaches graph start child

theorem Reaches.of_start (h : graph.Reaches start id) (hstart : ∀ x ∈ start, graph.Reaches other x) :
    graph.Reaches other id := by
  induction h with
  | start h => exact hstart _ h
  | child _ hchild ih => exact ih.child hchild

/-- What holds of the start and of the children of all it holds of, holds of all that is reached. -/
theorem Reaches.closed {P : PropertyId → Prop} (h : graph.Reaches start id) (hstart : ∀ x ∈ start, P x)
    (hchildren : ∀ x, P x → ∀ child ∈ graph.children x, P child) : P id := by
  induction h with
  | start h => exact hstart _ h
  | child _ hchild ih => exact hchildren _ ih _ hchild

theorem hasProperty_child (hknows : ∀ id, graph.Knows (graph.property id)) {child : PropertyId}
    (hchild : child ∈ graph.children id) : graph.HasProperty child := by
  obtain ⟨v, hv, hmem⟩ := List.mem_flatMap.1 hchild
  exact ((hknows id).checks v hv).children child hmem

theorem children_of_not_hasProperty (h : ¬ graph.HasProperty id) : graph.children id = [] := by
  have hdefault : graph.property id = default := by
    simp [property, Nat.le_of_not_lt h]
  unfold children
  rw [hdefault]
  rfl

/-! ## The walk that looks at the first pending property -/

variable {unvisited pending : List PropertyId}

theorem mem_unvisited_of_mem_visit (h : id ∈ graph.visit unvisited pending) : id ∈ unvisited := by
  induction unvisited, pending using Graph.visit.induct graph with
  | case1 unvisited =>
    rw [visit] at h
    exact absurd h List.not_mem_nil
  | case2 unvisited first pending hmem ih =>
    rw [visit, dif_pos hmem] at h
    rcases List.mem_cons.1 h with rfl | h
    · exact hmem
    · exact List.mem_of_mem_erase (ih h)
  | case3 unvisited first pending hnot ih =>
    rw [visit, dif_neg hnot] at h
    exact ih h

theorem nodup_visit (hnodup : unvisited.Nodup) : (graph.visit unvisited pending).Nodup := by
  induction unvisited, pending using Graph.visit.induct graph with
  | case1 unvisited =>
    rw [visit]
    exact List.nodup_nil
  | case2 unvisited first pending hmem ih =>
    rw [visit, dif_pos hmem]
    refine List.nodup_cons.2 ⟨fun hagain => ?_, ih (hnodup.erase first)⟩
    exact hnodup.not_mem_erase (mem_unvisited_of_mem_visit hagain)
  | case3 unvisited first pending hnot ih =>
    rw [visit, dif_neg hnot]
    exact ih hnodup

theorem reaches_of_mem_visit (h : id ∈ graph.visit unvisited pending) : graph.Reaches pending id := by
  induction unvisited, pending using Graph.visit.induct graph with
  | case1 unvisited =>
    rw [visit] at h
    exact absurd h List.not_mem_nil
  | case2 unvisited first pending hmem ih =>
    rw [visit, dif_pos hmem] at h
    have hfirst : graph.Reaches (first :: pending) first := .start List.mem_cons_self
    rcases List.mem_cons.1 h with rfl | h
    · exact hfirst
    · refine (ih h).of_start fun x hx => ?_
      rcases List.mem_append.1 hx with hx | hx
      · exact hfirst.child hx
      · exact .start (List.mem_cons_of_mem _ hx)
  | case3 unvisited first pending hnot ih =>
    rw [visit, dif_neg hnot] at h
    exact (ih h).of_start fun x hx => .start (List.mem_cons_of_mem _ hx)

theorem mem_visit_of_mem_pending (hpending : id ∈ pending) (hunvisited : id ∈ unvisited) :
    id ∈ graph.visit unvisited pending := by
  induction unvisited, pending using Graph.visit.induct graph with
  | case1 unvisited => exact absurd hpending List.not_mem_nil
  | case2 unvisited first pending hmem ih =>
    rw [visit, dif_pos hmem]
    by_cases heq : id = first
    · exact heq ▸ List.mem_cons_self
    · have hrest : id ∈ pending := (List.mem_cons.1 hpending).resolve_left heq
      exact List.mem_cons_of_mem _ (ih (List.mem_append_right _ hrest) ((List.mem_erase_of_ne heq).2 hunvisited))
  | case3 unvisited first pending hnot ih =>
    rw [visit, dif_neg hnot]
    exact ih ((List.mem_cons.1 hpending).resolve_left fun heq => hnot (heq ▸ hunvisited)) hunvisited

theorem child_mem_visit {child : PropertyId} (h : id ∈ graph.visit unvisited pending)
    (hchild : child ∈ graph.children id) (hunvisited : child ∈ unvisited) : child ∈ graph.visit unvisited pending := by
  induction unvisited, pending using Graph.visit.induct graph with
  | case1 unvisited =>
    rw [visit] at h
    exact absurd h List.not_mem_nil
  | case2 unvisited first pending hmem ih =>
    rw [visit, dif_pos hmem] at h ⊢
    by_cases heq : child = first
    · exact heq ▸ List.mem_cons_self
    · have hleft : child ∈ unvisited.erase first := (List.mem_erase_of_ne heq).2 hunvisited
      refine List.mem_cons_of_mem _ ?_
      rcases List.mem_cons.1 h with rfl | h
      · exact mem_visit_of_mem_pending (List.mem_append_left _ hchild) hleft
      · exact ih h hleft
  | case3 unvisited first pending hnot ih =>
    rw [visit, dif_neg hnot] at h ⊢
    exact ih h hunvisited

theorem nodup_reachable (graph : Graph) (start : List PropertyId) : (graph.reachable start).Nodup :=
  nodup_visit graph.nodup_propertyIds

/-- Where no id dangles, the walk from known properties finds all that is reached and nothing else. -/
theorem mem_reachable_iff (hknows : ∀ id, graph.Knows (graph.property id)) (hstart : ∀ x ∈ start, graph.HasProperty x) :
    id ∈ graph.reachable start ↔ graph.Reaches start id := by
  refine ⟨reaches_of_mem_visit, fun h => h.closed (fun x hx => ?_) fun x hx child hchild => ?_⟩
  · exact mem_visit_of_mem_pending hx (mem_propertyIds.2 (hstart x hx))
  · exact child_mem_visit hx hchild (mem_propertyIds.2 (hasProperty_child hknows hchild))

end Graph

/-! ## Walks in any order -/

/-- What a walk has come upon, and what it has still to look at. -/
structure Walk where
  found : List PropertyId
  pending : List PropertyId

namespace Walk

variable {graph : Graph} {known start : List PropertyId} {walk later : Walk}

/-- One step looks at any pending property.  It passes by what is known from the beginning or has been found; anything
else is found now, and its children are pending. -/
inductive Step (graph : Graph) (known : List PropertyId) : Walk → Walk → Prop where
  | pass {found front back : List PropertyId} {id : PropertyId} (h : id ∈ known ∨ id ∈ found) :
    Step graph known ⟨found, front ++ id :: back⟩ ⟨found, front ++ back⟩
  | visit {found front back : List PropertyId} {id : PropertyId} (h : ¬ (id ∈ known ∨ id ∈ found)) :
    Step graph known ⟨found, front ++ id :: back⟩ ⟨found ++ [id], front ++ back ++ graph.children id⟩

abbrev Steps (graph : Graph) (known : List PropertyId) : Walk → Walk → Prop :=
  Relation.ReflTransGen (Step graph known)

/-- Nothing can be looked at any more. -/
def IsOver (graph : Graph) (known : List PropertyId) (walk : Walk) : Prop := ∀ later, ¬ Step graph known walk later

theorem isOver_iff : walk.IsOver graph known ↔ walk.pending = [] := by
  obtain ⟨found, pending⟩ := walk
  constructor
  · intro h
    cases pending with
    | nil => rfl
    | cons id pending =>
      by_cases hseen : id ∈ known ∨ id ∈ found
      · have hpass : Step graph known ⟨found, [] ++ id :: pending⟩ ⟨found, [] ++ pending⟩ := .pass hseen
        exact absurd hpass (h _)
      · have hvisit : Step graph known ⟨found, [] ++ id :: pending⟩ ⟨found ++ [id], [] ++ pending ++ graph.children id⟩ :=
          .visit hseen
        exact absurd hvisit (h _)
  · rintro hnil later hstep
    cases hstep <;> simp at hnil

/-! ### Walks end -/

/-- How many properties of the graph have not been found. -/
def unfound (graph : Graph) (walk : Walk) : Nat := (graph.propertyIds.filter (· ∉ walk.found)).length

/-- Finding a property leaves fewer; an id that belongs to no property has no children. -/
theorem Step.decreases (h : Step graph known walk later) :
    later.unfound graph < walk.unfound graph ∨
      later.unfound graph ≤ walk.unfound graph ∧ later.pending.length < walk.pending.length := by
  cases h with
  | pass => exact Or.inr ⟨Nat.le_refl _, by simp⟩
  | @visit found front back id hnew =>
    have hnarrow : ∀ x, decide (x ∉ found ++ [id]) = true → decide (x ∉ found) = true := by
      intro x hx
      simp only [List.mem_append, decide_eq_true_eq] at hx ⊢
      exact fun hmem => hx (Or.inl hmem)
    have hle : (graph.propertyIds.filter (· ∉ found ++ [id])).length ≤ (graph.propertyIds.filter (· ∉ found)).length :=
      (List.monotone_filter_right _ hnarrow).length_le
    by_cases hid : graph.HasProperty id
    · refine Or.inl (Nat.lt_of_le_of_ne hle fun heq => ?_)
      have hsame := (List.monotone_filter_right graph.propertyIds hnarrow).eq_of_length heq
      have hmem : id ∈ graph.propertyIds.filter (· ∉ found) :=
        List.mem_filter.2 ⟨Graph.mem_propertyIds.2 hid, decide_eq_true fun hfound => hnew (Or.inr hfound)⟩
      rw [← hsame] at hmem
      exact absurd (of_decide_eq_true (List.mem_filter.1 hmem).2) (by simp)
    · refine Or.inr ⟨hle, ?_⟩
      simp [Graph.children_of_not_hasProperty hid]

/-- No walk goes on for ever. -/
theorem wellFounded_step (graph : Graph) (known : List PropertyId) :
    WellFounded fun later walk => Step graph known walk later := by
  refine Subrelation.wf (r := InvImage (Prod.Lex (· < ·) (· < ·)) fun walk => (walk.unfound graph, walk.pending.length))
    (fun {later walk} h => ?_) (InvImage.wf _ (Prod.lex Nat.lt_wfRel Nat.lt_wfRel).wf)
  rcases h.decreases with hless | ⟨hle, hless⟩
  · exact Prod.Lex.left _ _ hless
  · rcases Nat.lt_or_eq_of_le hle with hlt | heq
    · exact Prod.Lex.left _ _ hlt
    · exact Prod.lex_def.2 (Or.inr ⟨heq, hless⟩)

/-! ### What a walk finds -/

/-- What every step of a walk keeps: nothing is found twice or has been known, all that is seen is reached, and what
is to be seen, at the start or as a child of something seen, is seen or pending. -/
structure Gathers (graph : Graph) (known start : List PropertyId) (walk : Walk) : Prop where
  nodup : walk.found.Nodup
  fresh : ∀ id ∈ walk.found, id ∉ known
  reached : ∀ id, id ∈ walk.found ∨ id ∈ walk.pending → graph.Reaches (known ++ start) id
  begun : ∀ id ∈ start, id ∈ known ∨ id ∈ walk.found ∨ id ∈ walk.pending
  children : ∀ id, id ∈ known ∨ id ∈ walk.found → ∀ child ∈ graph.children id,
    child ∈ known ∨ child ∈ walk.found ∨ child ∈ walk.pending

theorem gathers_start (hknown : ∀ id ∈ known, ∀ child ∈ graph.children id, child ∈ start) :
    Gathers graph known start ⟨[], start⟩ where
  nodup := List.nodup_nil
  fresh _ hid := absurd hid List.not_mem_nil
  reached _ hid := hid.elim (fun hid => absurd hid List.not_mem_nil) fun hid => .start (List.mem_append_right _ hid)
  begun _ hid := Or.inr (Or.inr hid)
  children id hid child hchild :=
    hid.elim (fun hid => Or.inr (Or.inr (hknown id hid child hchild))) fun hid => absurd hid List.not_mem_nil

theorem Gathers.step (h : Gathers graph known start walk) (hstep : Step graph known walk later) :
    Gathers graph known start later := by
  cases hstep with
  | @pass found front back id hseen =>
    have hleft : ∀ x, x ∈ known ∨ x ∈ found ∨ x ∈ front ++ id :: back → x ∈ known ∨ x ∈ found ∨ x ∈ front ++ back := by
      intro x hx
      simp only [List.mem_append, List.mem_cons] at hx ⊢
      rcases hx with hx | hx | hx | rfl | hx
      · exact Or.inl hx
      · exact Or.inr (Or.inl hx)
      · exact Or.inr (Or.inr (Or.inl hx))
      · exact hseen.imp_right Or.inl
      · exact Or.inr (Or.inr (Or.inr hx))
    exact
      { nodup := h.nodup
        fresh := h.fresh
        reached := fun x hx => h.reached x (hx.imp_right fun hx => by
          simp only [List.mem_append, List.mem_cons] at hx ⊢
          exact hx.imp_right Or.inr)
        begun := fun x hx => hleft x (h.begun x hx)
        children := fun x hx child hchild => hleft child (h.children x hx child hchild) }
  | @visit found front back id hnew =>
    have hid : graph.Reaches (known ++ start) id := h.reached id (Or.inr (by simp))
    have hmoved : ∀ x, x ∈ known ∨ x ∈ found ∨ x ∈ front ++ id :: back →
        x ∈ known ∨ x ∈ found ++ [id] ∨ x ∈ front ++ back ++ graph.children id := by
      intro x hx
      simp only [List.mem_append, List.mem_cons, List.not_mem_nil, or_false] at hx ⊢
      rcases hx with hx | hx | hx | rfl | hx
      · exact Or.inl hx
      · exact Or.inr (Or.inl (Or.inl hx))
      · exact Or.inr (Or.inr (Or.inl (Or.inl hx)))
      · exact Or.inr (Or.inl (Or.inr rfl))
      · exact Or.inr (Or.inr (Or.inl (Or.inr hx)))
    refine
      { nodup := ?_
        fresh := ?_
        reached := ?_
        begun := fun x hx => hmoved x (h.begun x hx)
        children := ?_ }
    · exact List.nodup_append.2 ⟨h.nodup, List.pairwise_singleton _ id, fun x hx y hy heq =>
        hnew (Or.inr (List.mem_singleton.1 hy ▸ heq ▸ hx))⟩
    · intro x hx
      rcases List.mem_append.1 hx with hx | hx
      · exact h.fresh x hx
      · exact fun hmem => hnew (Or.inl (List.mem_singleton.1 hx ▸ hmem))
    · intro x hx
      simp only [List.mem_append, List.mem_singleton] at hx
      rcases hx with (hx | rfl) | (hx | hx) | hx
      · exact h.reached x (Or.inl hx)
      · exact hid
      · exact h.reached x (Or.inr (List.mem_append_left _ hx))
      · exact h.reached x (Or.inr (List.mem_append_right _ (List.mem_cons_of_mem _ hx)))
      · exact hid.child hx
    · intro x hx child hchild
      rw [List.mem_append, List.mem_singleton, ← or_assoc] at hx
      rcases hx with hx | rfl
      · exact hmoved child (h.children x hx child hchild)
      · exact Or.inr (Or.inr (List.mem_append_right _ hchild))

theorem Gathers.steps (h : Gathers graph known start walk) (hsteps : Steps graph known walk later) :
    Gathers graph known start later := by
  induction hsteps with
  | refl => exact h
  | tail _ hlast ih => exact ih.step hlast

theorem Gathers.mem_found_iff (h : Gathers graph known start walk) (hover : walk.IsOver graph known) {id : PropertyId} :
    id ∈ walk.found ↔ graph.Reaches (known ++ start) id ∧ id ∉ known := by
  have hnone : ∀ x, ¬ x ∈ walk.pending := fun x hx => by
    rw [isOver_iff.1 hover] at hx
    exact absurd hx List.not_mem_nil
  refine ⟨fun hid => ⟨h.reached id (Or.inl hid), h.fresh id hid⟩, fun ⟨hreached, hnot⟩ => ?_⟩
  have hseen : id ∈ known ∨ id ∈ walk.found := by
    refine hreached.closed (P := fun x => x ∈ known ∨ x ∈ walk.found) (fun x hx => ?_) fun x hx child hchild => ?_
    · rcases List.mem_append.1 hx with hx | hx
      · exact Or.inl hx
      · exact (h.begun x hx).imp_right fun hx => hx.resolve_right (hnone x)
    · exact (h.children x hx child hchild).imp_right fun hx => hx.resolve_right (hnone child)
  exact hseen.resolve_left hnot

/-- A walk that is over has found what is reached and was not known. -/
theorem mem_found_iff (hknown : ∀ id ∈ known, ∀ child ∈ graph.children id, child ∈ start)
    (hsteps : Steps graph known ⟨[], start⟩ walk) (hover : walk.IsOver graph known) {id : PropertyId} :
    id ∈ walk.found ↔ graph.Reaches (known ++ start) id ∧ id ∉ known :=
  ((gathers_start hknown).steps hsteps).mem_found_iff hover

theorem nodup_found (hknown : ∀ id ∈ known, ∀ child ∈ graph.children id, child ∈ start)
    (hsteps : Steps graph known ⟨[], start⟩ walk) : walk.found.Nodup :=
  ((gathers_start hknown).steps hsteps).nodup

end Walk
end SchemaTypes

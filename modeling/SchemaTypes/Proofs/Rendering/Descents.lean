import Mathlib.Logic.Relation
import SchemaTypes.Proofs.Rendering.Walks
/-!
# Descents through checks

A canonical text and an outline go down the same way, from a property to its validators, from these to their children,
and so on.  The only thing that stops them is the path of open properties: one that is on it is cut short, any other is
put on it, and taken off when its validators are written.  `Descent.step` is one step of that, with what is still
pending, however the graph is made.

A path never repeats a property, so no descent goes on for ever.  What there is to say of paths is kept by each step
(`Descent.Guarded`).  The end is reached by induction on the properties that the path has left unopened
(`Descent.covers_property`), and there the path is as it was.
-/
namespace SchemaTypes

namespace Descent

/-- What is pending.  The depth is that of an outline. -/
inductive Job where
  | property (depth : Nat) (id : PropertyId)
  | check (depth : Nat) (validator : Validator)
  /-- The children of a check have been gone through. -/
  | endCheck
  /-- The validators of a property have been gone through. -/
  | close (depth : Nat) (id : PropertyId)
  /-- A type's own checks come next. -/
  | own (validators : Validators)

/-- What is written.  Only an opened property has its validators written. -/
inductive Event where
  | opened (depth : Nat) (id : PropertyId)
  /-- The property is open already. -/
  | cut (depth : Nat) (id : PropertyId)
  | check (depth : Nat) (validator : Validator)
  | endCheck
  | closed (depth : Nat)
  | own (validators : Validators)

/-- Something written, and the properties that were open at the time, the innermost one first. -/
structure Entry where
  path : List PropertyId
  event : Event

end Descent

structure Descent where
  path : List PropertyId
  pending : List Descent.Job
  written : List Descent.Entry

namespace Descent

variable {graph : Graph} {type : ObjectType} {path : List PropertyId} {id : PropertyId} {depth : Nat}
  {now later : Descent}

/-- What is written when the event is. -/
def write (now : Descent) (event : Event) : List Entry := now.written ++ [⟨now.path, event⟩]

/-- The first pending job is done as far as it goes, and what it leads to is pending instead. -/
def step (graph : Graph) (now : Descent) : Option Descent :=
  match now.pending with
  | [] => none
  | .property depth id :: rest =>
    if id ∈ now.path then some ⟨now.path, rest, now.write (.cut depth id)⟩
    else
      let checks := (graph.property id).validators.toList.map (Job.check (depth + 1))
      some ⟨id :: now.path, checks ++ .close depth id :: rest, now.write (.opened depth id)⟩
  | .check depth validator :: rest =>
    let children := validator.check.children.map (Job.property (depth + 1))
    some ⟨now.path, children ++ .endCheck :: rest, now.write (.check depth validator)⟩
  | .endCheck :: rest => some ⟨now.path, rest, now.write .endCheck⟩
  | .close depth id :: rest => some ⟨now.path.erase id, rest, now.write (.closed depth)⟩
  | .own validators :: rest => some ⟨now.path, rest, now.write (.own validators)⟩

abbrev Steps (graph : Graph) : Descent → Descent → Prop :=
  Relation.ReflTransGen fun now later => step graph now = some later

/-! ## Paths -/

/-- The validators written below a path, those of its innermost property or of the type itself. -/
def validatorsAt (graph : Graph) (type : ObjectType) : List PropertyId → Validators
  | [] => type.validators
  | id :: _ => (graph.property id).validators

/-- A way down from the type, the last property first. -/
inductive Way (graph : Graph) (type : ObjectType) : List PropertyId → Prop where
  | nil : Way graph type []
  | member {id : PropertyId} (h : id ∈ type.properties) : Way graph type [id]
  | child {path : List PropertyId} {validator : Validator} {child : PropertyId} (h : Way graph type path)
    (hcheck : validator ∈ (validatorsAt graph type path).toList) (hchild : child ∈ validator.check.children) :
    Way graph type (child :: path)

theorem Way.tail (h : Way graph type (id :: path)) : Way graph type path := by
  cases h with
  | member => exact .nil
  | child h => exact h

/-- What is pending belongs to the path: behind the jobs of a property comes its closing, and then what was pending
when it was opened. -/
inductive Fits (graph : Graph) (type : ObjectType) : List PropertyId → List Job → Prop where
  | nil : Fits graph type [] []
  | property {path : List PropertyId} {jobs : List Job} {depth : Nat} {id : PropertyId}
    (hway : Way graph type (id :: path)) (h : Fits graph type path jobs) :
    Fits graph type path (.property depth id :: jobs)
  | check {path : List PropertyId} {jobs : List Job} {depth : Nat} {validator : Validator}
    (hcheck : validator ∈ (validatorsAt graph type path).toList) (h : Fits graph type path jobs) :
    Fits graph type path (.check depth validator :: jobs)
  | endCheck {path : List PropertyId} {jobs : List Job} (h : Fits graph type path jobs) :
    Fits graph type path (.endCheck :: jobs)
  | close {path : List PropertyId} {jobs : List Job} {depth : Nat} {id : PropertyId} (h : Fits graph type path jobs) :
    Fits graph type (id :: path) (.close depth id :: jobs)
  | own {path : List PropertyId} {jobs : List Job} {validators : Validators} (h : Fits graph type path jobs) :
    Fits graph type path (.own validators :: jobs)

theorem Fits.properties {jobs : List Job} {ids : List PropertyId} (hways : ∀ id ∈ ids, Way graph type (id :: path))
    (h : Fits graph type path jobs) : Fits graph type path (ids.map (Job.property depth) ++ jobs) := by
  induction ids with
  | nil => exact h
  | cons id ids ih =>
    exact .property (hways id List.mem_cons_self) (ih fun other hother => hways other (List.mem_cons_of_mem _ hother))

theorem Fits.checks {jobs : List Job} {validators : List Validator}
    (hchecks : ∀ v ∈ validators, v ∈ (validatorsAt graph type path).toList) (h : Fits graph type path jobs) :
    Fits graph type path (validators.map (Job.check depth) ++ jobs) := by
  induction validators with
  | nil => exact h
  | cons v validators ih =>
    exact .check (hchecks v List.mem_cons_self) (ih fun other hother => hchecks other (List.mem_cons_of_mem _ hother))

/-- The path of an entry is a way down from the type that passes nothing twice, and the validators written there are
those of its innermost property.  A property is opened if it is not on the path, and cut short if it is. -/
structure Entry.Sound (graph : Graph) (type : ObjectType) (entry : Entry) : Prop where
  way : Way graph type entry.path
  nodup : entry.path.Nodup
  check : ∀ depth v, entry.event = .check depth v → v ∈ (validatorsAt graph type entry.path).toList
  opened : ∀ depth id, entry.event = .opened depth id → Way graph type (id :: entry.path) ∧ id ∉ entry.path
  cut : ∀ depth id, entry.event = .cut depth id → Way graph type (id :: entry.path) ∧ id ∈ entry.path

/-- What every step keeps. -/
structure Guarded (graph : Graph) (type : ObjectType) (now : Descent) : Prop where
  fits : Fits graph type now.path now.pending
  way : Way graph type now.path
  nodup : now.path.Nodup
  sound : ∀ entry ∈ now.written, entry.Sound graph type

theorem Guarded.sound_write (h : Guarded graph type now) {event : Event}
    (hevent : Entry.Sound graph type ⟨now.path, event⟩) : ∀ entry ∈ now.write event, entry.Sound graph type := by
  intro entry hentry
  rcases List.mem_append.1 hentry with hentry | hentry
  · exact h.sound entry hentry
  · exact List.mem_singleton.1 hentry ▸ hevent

/-- **A step keeps the path free of repetitions**, and cuts short only what is on it. -/
theorem Guarded.step (h : Guarded graph type now) (hstep : Descent.step graph now = some later) :
    Guarded graph type later := by
  obtain ⟨path, pending, written⟩ := now
  have hfits := h.fits
  cases hfits with
  | nil => cases hstep
  | property hway hrest =>
    simp only [Descent.step] at hstep
    split at hstep
    · rename_i hmem
      cases hstep
      refine ⟨hrest, h.way, h.nodup, h.sound_write ⟨h.way, h.nodup, nofun, nofun, fun _ _ heq => ?_⟩⟩
      cases heq
      exact ⟨hway, hmem⟩
    · rename_i hnew
      cases hstep
      refine ⟨.checks (fun v hv => hv) (.close hrest), hway, List.nodup_cons.2 ⟨hnew, h.nodup⟩,
        h.sound_write ⟨h.way, h.nodup, nofun, fun _ _ heq => ?_, nofun⟩⟩
      cases heq
      exact ⟨hway, hnew⟩
  | check hcheck hrest =>
    cases hstep
    refine ⟨.properties (fun id hid => h.way.child hcheck hid) (.endCheck hrest), h.way, h.nodup,
      h.sound_write ⟨h.way, h.nodup, fun _ _ heq => ?_, nofun, nofun⟩⟩
    cases heq
    exact hcheck
  | endCheck hrest =>
    cases hstep
    exact ⟨hrest, h.way, h.nodup, h.sound_write ⟨h.way, h.nodup, nofun, nofun, nofun⟩⟩
  | @close rest _ depth id hrest =>
    cases hstep
    have herase : (id :: rest).erase id = rest := List.erase_cons_head id rest
    have hfits : Fits graph type ((id :: rest).erase id) _ := herase.symm ▸ hrest
    have hway : Way graph type ((id :: rest).erase id) := herase.symm ▸ h.way.tail
    exact ⟨hfits, hway, h.nodup.erase id, h.sound_write ⟨h.way, h.nodup, nofun, nofun, nofun⟩⟩
  | own hrest =>
    cases hstep
    exact ⟨hrest, h.way, h.nodup, h.sound_write ⟨h.way, h.nodup, nofun, nofun, nofun⟩⟩

theorem Guarded.steps (h : Guarded graph type now) (hsteps : Steps graph now later) : Guarded graph type later := by
  induction hsteps with
  | refl => exact h
  | tail _ hlast ih => exact ih.step hlast

/-! ## Descents end -/

/-- No descent goes on for ever from where steps have led to an end, for each has one next step at most. -/
theorem acc_of_steps (hsteps : Steps graph now later) (hover : step graph later = none) :
    Acc (fun later now => step graph now = some later) now := by
  induction hsteps using Relation.ReflTransGen.head_induction_on with
  | refl => exact Acc.intro _ fun next hnext => nomatch hover.symm.trans hnext
  | head hstep _ ih => exact Acc.intro _ fun next hnext => Option.some.inj (hstep.symm.trans hnext) ▸ ih

/-- Whatever else is pending, the jobs are done with these entries, and the path is as before. -/
def Covers (graph : Graph) (path : List PropertyId) (jobs : List Job) (entries : List Entry) : Prop :=
  ∀ rest written, Steps graph ⟨path, jobs ++ rest, written⟩ ⟨path, rest, written ++ entries⟩

variable {jobs jobs' : List Job} {entries entries' : List Entry}

theorem Covers.append (h : Covers graph path jobs entries) (h' : Covers graph path jobs' entries') :
    Covers graph path (jobs ++ jobs') (entries ++ entries') := by
  intro rest written
  have hsteps := (h (jobs' ++ rest) written).trans (h' rest (written ++ entries))
  rwa [← List.append_assoc, List.append_assoc written] at hsteps

theorem Covers.flatMap {α : Type} {l : List α} {job : α → Job} {course : α → List Entry}
    (h : ∀ a ∈ l, Covers graph path [job a] (course a)) : Covers graph path (l.map job) (l.flatMap course) := by
  induction l with
  | nil =>
    intro rest written
    rw [List.flatMap_nil, List.append_nil]
    exact .refl
  | cons a l ih =>
    rw [List.flatMap_cons]
    exact (h a List.mem_cons_self).append (ih fun b hb => h b (List.mem_cons_of_mem _ hb))

theorem covers_own (validators : Validators) : Covers graph path [.own validators] [⟨path, .own validators⟩] :=
  fun _ _ => .single rfl

/-- The entries of a check, given those of a child. -/
def checkCourse (path : List PropertyId) (depth : Nat) (child : PropertyId → List Entry) (validator : Validator) :
    List Entry := ⟨path, .check depth validator⟩ :: validator.check.children.flatMap child ++ [⟨path, .endCheck⟩]

theorem covers_check {child : PropertyId → List Entry} {validator : Validator}
    (h : ∀ id ∈ validator.check.children, Covers graph path [.property (depth + 1) id] (child id)) :
    Covers graph path [.check depth validator] (checkCourse path depth child validator) := by
  intro rest written
  have hchildren := Covers.flatMap h (.endCheck :: rest) (written ++ [⟨path, .check depth validator⟩])
  refine .head rfl (hchildren.tail ?_)
  simp [step, write, checkCourse]

end Descent

namespace Graph

variable {graph : Graph} {path : List PropertyId} {id : PropertyId}

/-- The properties that a path leaves to be opened. -/
def unopened (graph : Graph) (path : List PropertyId) : List PropertyId := graph.propertyIds.filter (· ∉ path)

theorem unopened_nil (graph : Graph) : graph.unopened [] = graph.propertyIds := by
  simp [unopened]

theorem mem_unopened : id ∈ graph.unopened path ↔ graph.HasProperty id ∧ id ∉ path := by
  simp [unopened, mem_propertyIds]

/-- Opening a property leaves one less. -/
theorem erase_unopened (graph : Graph) (path : List PropertyId) (id : PropertyId) :
    (graph.unopened path).erase id = graph.unopened (id :: path) := by
  have hnodup : (graph.unopened path).Nodup := graph.nodup_propertyIds.filter _
  rw [hnodup.erase_eq_filter, unopened, List.filter_filter]
  refine List.filter_congr fun other _ => ?_
  by_cases heq : other = id <;> simp [heq]

end Graph

namespace Descent

variable {graph : Graph} {path : List PropertyId} {id : PropertyId} {depth : Nat}

/-- The entries of a property below a path. -/
def propertyCourse (graph : Graph) (path : List PropertyId) (depth : Nat) (id : PropertyId) : List Entry :=
  if _h : id ∈ graph.unopened path then
    ⟨path, .opened depth id⟩ ::
      (graph.property id).validators.toList.flatMap
        (checkCourse (id :: path) (depth + 1) fun child => propertyCourse graph (id :: path) (depth + 2) child)
      ++ [⟨id :: path, .closed depth⟩]
  else [⟨path, .cut depth id⟩]
termination_by (graph.unopened path).length
decreasing_by
  rw [← Graph.erase_unopened]
  have := List.length_erase_of_mem _h
  have := List.length_pos_of_mem _h
  omega

/-- **A property is gone through to its end.** -/
theorem covers_property (hknows : ∀ id, graph.Knows (graph.property id)) (hid : graph.HasProperty id) :
    Covers graph path [.property depth id] (propertyCourse graph path depth id) := by
  induction path, depth, id using propertyCourse.induct graph with
  | case1 path depth id hopen ih =>
    have hnew : id ∉ path := (Graph.mem_unopened.1 hopen).2
    have hchecks : Covers graph (id :: path) ((graph.property id).validators.toList.map (Job.check (depth + 1)))
        ((graph.property id).validators.toList.flatMap
          (checkCourse (id :: path) (depth + 1) fun child => propertyCourse graph (id :: path) (depth + 2) child)) :=
      .flatMap fun v hv => covers_check fun child hchild => ih child (((hknows id).checks v hv).children child hchild)
    intro rest written
    have hbelow := hchecks (.close depth id :: rest) (written ++ [⟨path, .opened depth id⟩])
    rw [propertyCourse, dif_pos hopen]
    refine .head (if_neg hnew) (hbelow.tail ?_)
    simp [step, write]
  | case2 path depth id hnot =>
    have hmem : id ∈ path := Classical.not_not.1 fun hnew => hnot (Graph.mem_unopened.2 ⟨hid, hnew⟩)
    intro rest written
    rw [propertyCourse, dif_neg hnot]
    exact .single (if_pos hmem)

end Descent

/-! ## Types -/

/-- What is pending at the start: the properties of a type, and its own checks. -/
def ObjectType.jobs (type : ObjectType) : List Descent.Job :=
  type.properties.map (.property 1) ++ .own type.validators :: type.validators.toList.map (.check 2)

namespace Descent

variable {graph : Graph} {type : ObjectType}

/-- The entries of a type. -/
def typeCourse (graph : Graph) (type : ObjectType) : List Entry :=
  type.properties.flatMap (propertyCourse graph [] 1) ++ ⟨[], .own type.validators⟩ ::
    type.validators.toList.flatMap (checkCourse [] 2 (propertyCourse graph [] 3))

/-- These are the entries of the descent through a type.  It does not go on for ever, its steps end with them, with
nothing open, and each of them is sound. -/
structure IsCourse (graph : Graph) (type : ObjectType) (entries : List Entry) : Prop where
  finite : Acc (fun later now => step graph now = some later) ⟨[], type.jobs, []⟩
  ends : Steps graph ⟨[], type.jobs, []⟩ ⟨[], [], entries⟩
  sound : ∀ entry ∈ entries, entry.Sound graph type

/-- There is one way to go through a type. -/
theorem IsCourse.unique {entries entries' : List Entry} (h : IsCourse graph type entries)
    (h' : IsCourse graph type entries') : entries = entries' := by
  have hunique : Relator.RightUnique fun now later => step graph now = some later := fun _ _ _ hone htwo =>
    Option.some.inj (hone.symm.trans htwo)
  have hover : ∀ {written later}, Steps graph ⟨[], [], written⟩ later → later = ⟨[], [], written⟩ := by
    intro written later hsteps
    rcases Relation.ReflTransGen.cases_head hsteps with heq | ⟨next, hstep, _⟩
    · exact heq.symm
    · cases hstep
  rcases Relation.ReflTransGen.total_of_right_unique hunique h.ends h'.ends with hsteps | hsteps
  · exact congrArg written (hover hsteps).symm
  · exact congrArg written (hover hsteps)

theorem guarded_start (graph : Graph) (type : ObjectType) : Guarded graph type ⟨[], type.jobs, []⟩ := by
  have hchecks : Fits graph type [] (type.validators.toList.map (Job.check 2) ++ []) := .checks (fun v hv => hv) .nil
  rw [List.append_nil] at hchecks
  refine ⟨.properties (fun id hid => .member hid) (.own hchecks), .nil, List.nodup_nil, fun _ hentry => ?_⟩
  exact absurd hentry List.not_mem_nil

theorem isCourse_typeCourse (hknows : ∀ id, graph.Knows (graph.property id)) (htype : graph.KnowsType type) :
    IsCourse graph type (typeCourse graph type) := by
  have hproperties : Covers graph [] (type.properties.map (.property 1))
      (type.properties.flatMap (propertyCourse graph [] 1)) :=
    .flatMap fun id hid => covers_property hknows (htype.properties id hid)
  have hchecks : Covers graph [] (type.validators.toList.map (.check 2))
      (type.validators.toList.flatMap (checkCourse [] 2 (propertyCourse graph [] 3))) :=
    .flatMap fun v hv => covers_check fun child hchild =>
      covers_property hknows ((htype.checks v hv).children child hchild)
  have hcovers : Covers graph [] type.jobs (typeCourse graph type) :=
    hproperties.append ((covers_own type.validators).append hchecks)
  have hends := hcovers [] []
  rw [List.append_nil, List.nil_append] at hends
  exact ⟨acc_of_steps hends rfl, hends, ((guarded_start graph type).steps hends).sound⟩

end Descent
end SchemaTypes

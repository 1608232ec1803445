import SchemaTypes.Evaluation.Basic
import SchemaTypes.Proofs.Building.Tandem
/-!
# Filters and declared kinds

A filter is made for values of some kinds, and evaluation leaves the values of other kinds alone (`Filter.RunsOn`).
Building refuses a filter that does not suit the kinds a property declares.  It compares kinds where evaluation looks
at values: a filter suits if it runs on all values of one of the declared kinds (`isCompatible_iff`), so what is
refused is any filter that could never run, and one more: a filter of integers on a property of numbers, though
integers are numbers (`applyFilters_incompatible_iff`).
-/
namespace SchemaTypes

open Evaluation

namespace Kind

variable {kind other : Kind}

/-- A value of which the kind is the most specific one. -/
def sample : Kind → Json
  | .null => .null
  | .boolean => .bool true
  | .integer => .number (.integer 0)
  | .number => .number (.float ⟨false, 0⟩)
  | .string => .string ""
  | .array => .array []
  | .object => .object []

theorem ofValue_sample (kind : Kind) : ofValue kind.sample = kind := by cases kind <;> rfl

theorem accepts_sample (kind : Kind) : kind.accepts kind.sample = true := by
  unfold accepts
  rw [ofValue_sample]
  exact includes_self kind

theorem includes_iff : kind.includes other = true ↔ other = kind ∨ kind = .number ∧ other = .integer := by
  simp [includes]

theorem includes_trans {least : Kind} (h : kind.includes other = true) (h' : other.includes least = true) :
    kind.includes least = true := by
  rw [includes_iff] at h h' ⊢
  rcases h with rfl | ⟨rfl, rfl⟩
  · exact h'
  · rcases h' with rfl | ⟨hnumber, -⟩
    · exact Or.inr ⟨rfl, rfl⟩
    · cases hnumber

end Kind

/-! ## Filters at evaluation -/

/-- Evaluation runs the filter on the value, whatever it does to it. -/
def Filter.RunsOn (filter : Filter) (value : Json) : Prop :=
  ∀ graph mode judge name options (apply : FilterFunction),
    transform graph mode judge (.filter name options filter.accepts apply) value = some (match apply value options with
      | .ok result => (.pass, result)
      | .error reason => (.failWith "reason" (.string reason), value))

theorem Filter.runsOn_iff {filter : Filter} {value : Json} :
    filter.RunsOn value ↔ ∃ kind ∈ filter.accepts, kind.accepts value = true := by
  have hany : filter.accepts.any (·.accepts value) = true ↔ ∃ kind ∈ filter.accepts, kind.accepts value = true :=
    List.any_eq_true
  rw [← hany]
  constructor
  · intro h
    -- a filter that fails tells a run from none
    have hfailing := h {} .collectAll (fun _ _ => none) "" .null fun _ _ => .error ""
    by_contra hnot
    simp only [transform, transformByFilter, hnot, ↓reduceIte, Option.some.injEq, Prod.mk.injEq] at hfailing
    cases hfailing.1
  · intro h graph mode judge name options apply
    exact congrArg some (if_pos h)

/-! ## What an entry asks for -/

theorem Filters.name_of_get? {filters : Filters} {name : String} {filter : Filter}
    (h : filters.get? name = some filter) : filter.name = name := by
  have hfound := List.find?_some h
  exact of_decide_eq_true hfound

/-- The entry of `filter` asks for the registered filter with the options. -/
inductive Filters.Asks (filters : Filters) : Json → Filter → Json → Prop where
  | byName {name : String} {filter : Filter} (h : filters.get? name = some filter) :
    Asks filters (.string name) filter .null
  | byMember {members : List (String × Json)} {name : String} {filter : Filter}
    (hname : Members.get? members "filter" = some (.string name)) (h : filters.get? name = some filter) :
    Asks filters (.object members) filter
      (if (members.filter (·.1 ≠ "filter")).isEmpty then .null else .object (members.filter (·.1 ≠ "filter")))

theorem Filters.Asks.unique {filters : Filters} {entry options options' : Json} {filter filter' : Filter}
    (h : filters.Asks entry filter options) (h' : filters.Asks entry filter' options') : filter = filter' := by
  cases h with
  | byName h =>
    cases h' with
    | byName h' => exact Option.some.inj (h.symm.trans h')
  | byMember hname h =>
    cases h' with
    | byMember hname' h' =>
      cases hname.symm.trans hname'
      exact Option.some.inj (h.symm.trans h')

theorem Filters.Asks.get? {filters : Filters} {entry options : Json} {filter : Filter}
    (h : filters.Asks entry filter options) : filters.get? filter.name = some filter := by
  cases h with
  | byName h => rwa [Filters.name_of_get? h]
  | byMember _ h => rwa [Filters.name_of_get? h]

/-- The entries of `filter`: those of a list, or the one there is. -/
def Json.filterEntries : Json → List Json
  | .array entries => entries
  | entry => [entry]

namespace Building

open Build

variable {config : Config} {s : Session} {property : Property} {node entry spec options : Json} {filter : Filter}
  {kinds : List Kind}

/-! ## Which filters suit -/

/-- A filter suits if it runs on all values of a declared kind. -/
theorem isCompatible_iff :
    isCompatible filter kinds = true ↔
      ∃ kind ∈ kinds, ∀ value, kind.accepts value = true → filter.RunsOn value := by
  simp only [isCompatible, List.any_eq_true]
  refine exists_congr fun kind => and_congr_right fun _ => ?_
  constructor
  · rintro ⟨accepted, hmem, hincludes⟩ value haccepts
    exact Filter.runsOn_iff.2 ⟨accepted, hmem, Kind.includes_trans hincludes haccepts⟩
  · intro h
    obtain ⟨accepted, hmem, haccepts⟩ := Filter.runsOn_iff.1 (h kind.sample (Kind.accepts_sample kind))
    unfold Kind.accepts at haccepts
    rw [Kind.ofValue_sample] at haccepts
    exact ⟨accepted, hmem, haccepts⟩

/-- The values that a declared kind and a filter which does not suit have in common are integers, declared as numbers
and accepted as integers. -/
theorem isCompatible_eq_false_iff :
    isCompatible filter kinds = false ↔
      ∀ value, (∃ kind ∈ kinds, kind.accepts value = true) → filter.RunsOn value →
        Kind.ofValue value = .integer ∧ .integer ∉ kinds ∧ .number ∉ filter.accepts := by
  have hany : isCompatible filter kinds = true ↔
      ∃ kind ∈ kinds, ∃ accepted ∈ filter.accepts, accepted.includes kind = true := by
    simp only [isCompatible, List.any_eq_true]
  rw [← Bool.not_eq_true, hany]
  constructor
  · rintro h value ⟨kind, hkind, haccepts⟩ hruns
    obtain ⟨accepted, haccepted, hincludes⟩ := Filter.runsOn_iff.1 hruns
    have hnumber : kind = .number ∧ Kind.ofValue value = .integer := by
      rcases Kind.includes_iff.1 haccepts with heq | hnumber
      · exact absurd ⟨kind, hkind, accepted, haccepted, heq ▸ hincludes⟩ h
      · exact hnumber
    obtain ⟨rfl, hinteger⟩ := hnumber
    refine ⟨hinteger, fun hmem => h ⟨.integer, hmem, accepted, haccepted, ?_⟩, fun hmem => ?_⟩
    · unfold Kind.accepts at hincludes
      rwa [hinteger] at hincludes
    · exact h ⟨.number, hkind, .number, hmem, Kind.includes_self .number⟩
  · rintro h ⟨kind, hkind, accepted, haccepted, hincludes⟩
    have hruns : filter.RunsOn kind.sample :=
      Filter.runsOn_iff.2 ⟨accepted, haccepted, by unfold Kind.accepts; rwa [Kind.ofValue_sample]⟩
    obtain ⟨hinteger, hnot, -⟩ := h kind.sample ⟨kind, hkind, Kind.accepts_sample kind⟩ hruns
    rw [Kind.ofValue_sample] at hinteger
    exact hnot (hinteger ▸ hkind)

/-! ## One entry -/

/-- The check that runs a filter. -/
def filterCheck (filter : Filter) (options : Json) : Check := .filter filter.name options filter.accepts filter.apply

theorem runs_filterEntry (h : config.filters.Asks entry filter options) :
    (filterEntry property entry).Runs config s (filter.name, options) s := by
  cases h with
  | byName h => exact runs_pure.2 ⟨by rw [Filters.name_of_get? h], rfl⟩
  | byMember hname h =>
    simp only [filterEntry, hname]
    exact runs_pure.2 ⟨by rw [Filters.name_of_get? h], rfl⟩

theorem runs_applyFilter (hkinds : property.declaredKinds? = some kinds)
    (hasks : config.filters.Asks entry filter options) (h : isCompatible filter kinds = true) :
    (applyFilter property entry).Runs config s (property.addCheck (filterCheck filter options)) s := by
  unfold applyFilter
  refine runs_bind.2 ⟨_, s, runs_filterEntry hasks, runs_read_bind.2 ?_⟩
  simp only [hasks.get?, hkinds, Option.map_some, Option.getD_some, h, ↓reduceIte]
  exact runs_pure.2 ⟨rfl, rfl⟩

theorem halts_applyFilter (hkinds : property.declaredKinds? = some kinds)
    (hasks : config.filters.Asks entry filter options) (h : isCompatible filter kinds = false) :
    (applyFilter property entry).Halts config s
      (.refused (.incompatibleFilter property.name filter.name property.labelText)) s := by
  unfold applyFilter
  rw [halts_bind_of_runs (runs_filterEntry hasks), halts_bind_of_runs (runs_read.2 ⟨rfl, rfl⟩)]
  simp only [hasks.get?, hkinds, Option.map_some, Option.getD_some, h, Bool.false_eq_true, ↓reduceIte]
  exact halts_throw.2 ⟨rfl, rfl⟩

/-! ## All entries -/

theorem applyFilters_eq (hspec : node.get? "filter" = some spec) :
    applyFilters property node = spec.filterEntries.foldlM applyFilter property := by
  unfold applyFilters
  rw [hspec]
  cases spec with
  | array entries => rfl
  | _ => simp [Json.filterEntries]

/-- Filters are added one by one, up to the first that does not suit. -/
theorem foldlM_applyFilter (entries : List Json) : ∀ {property : Property},
    property.declaredKinds? = some kinds →
    (∀ entry ∈ entries, ∃ filter options, config.filters.Asks entry filter options) →
    ((∀ entry ∈ entries, ∀ filter options, config.filters.Asks entry filter options →
        isCompatible filter kinds = true) ∧
      ∃ filtered, (entries.foldlM applyFilter property).Runs config s filtered s) ∨
    ∃ entry ∈ entries, ∃ filter options, config.filters.Asks entry filter options ∧
      isCompatible filter kinds = false ∧
      (entries.foldlM applyFilter property).Halts config s
        (.refused (.incompatibleFilter property.name filter.name property.labelText)) s := by
  induction entries with
  | nil => exact fun _ _ => Or.inl ⟨fun _ hmem => absurd hmem List.not_mem_nil, _, runs_pure.2 ⟨rfl, rfl⟩⟩
  | cons entry entries ih =>
    intro property hkinds hasks
    obtain ⟨filter, options, hfilter⟩ := hasks entry List.mem_cons_self
    rw [List.foldlM_cons]
    cases hsuits : isCompatible filter kinds with
    | false =>
      exact Or.inr ⟨entry, List.mem_cons_self, filter, options, hfilter, hsuits,
        halts_bind.2 (Or.inl (halts_applyFilter hkinds hfilter hsuits))⟩
    | true =>
      have hadded : (property.addCheck (filterCheck filter options)).declaredKinds? = some kinds :=
        (Property.declaredKinds?_add rfl).trans hkinds
      have hfirst := runs_applyFilter (s := s) hkinds hfilter hsuits
      rcases ih hadded fun other hmem => hasks other (List.mem_cons_of_mem _ hmem) with
        ⟨hrest, filtered, hruns⟩ | ⟨other, hmem, refused, settings, hrefused, hnot, hhalts⟩
      · refine Or.inl ⟨fun other hmem asked settings hasked => ?_, filtered, runs_bind.2 ⟨_, s, hfirst, hruns⟩⟩
        rcases List.mem_cons.1 hmem with rfl | hmem
        · exact (hfilter.unique hasked) ▸ hsuits
        · exact hrest other hmem asked settings hasked
      · exact Or.inr ⟨other, List.mem_cons_of_mem _ hmem, refused, settings, hrefused, hnot,
          (halts_bind_of_runs hfirst).2 hhalts⟩

/-- **A filter is refused exactly if the declared kinds leave it nothing to run on, integers among numbers apart.**  If
all entries of `filter` ask for registered filters and the property declares its kinds, then the only fault is that of
a filter which does not suit them, and it comes up exactly if, for one of the filters, every value of the declared kinds
that evaluation would run the filter on is an integer, declared as a number only and accepted as an integer only. -/
theorem applyFilters_incompatible_iff (hkinds : property.declaredKinds? = some kinds)
    (hspec : node.get? "filter" = some spec)
    (hasks : ∀ entry ∈ spec.filterEntries, ∃ filter options, config.filters.Asks entry filter options) :
    ((∃ name, (applyFilters property node).Halts config s
        (.refused (.incompatibleFilter property.name name property.labelText)) s) ↔
      ∃ entry ∈ spec.filterEntries, ∃ filter options, config.filters.Asks entry filter options ∧
        ∀ value, (∃ kind ∈ kinds, kind.accepts value = true) → filter.RunsOn value →
          Kind.ofValue value = .integer ∧ .integer ∉ kinds ∧ .number ∉ filter.accepts) ∧
    ∀ halt s', (applyFilters property node).Halts config s halt s' →
      (∃ name, halt = .refused (.incompatibleFilter property.name name property.labelText)) ∧ s' = s := by
  rw [applyFilters_eq hspec]
  rcases foldlM_applyFilter (s := s) spec.filterEntries hkinds hasks with
    ⟨hsuit, filtered, hruns⟩ | ⟨entry, hmem, filter, options, hfilter, hnot, hhalts⟩
  · refine ⟨⟨fun ⟨_, hhalts⟩ => absurd hhalts hruns.not_halts, ?_⟩, fun _ _ hhalts => absurd hhalts hruns.not_halts⟩
    rintro ⟨entry, hmem, filter, options, hfilter, hvalues⟩
    exact absurd (isCompatible_eq_false_iff.2 hvalues) (by rw [hsuit entry hmem filter options hfilter]; decide)
  · refine ⟨⟨fun _ => ⟨entry, hmem, filter, options, hfilter, isCompatible_eq_false_iff.1 hnot⟩, fun _ => ⟨_, hhalts⟩⟩,
      fun halt s' hother => ?_⟩
    unfold Halts at hhalts hother
    rw [hhalts] at hother
    cases hother
    exact ⟨⟨_, rfl⟩, rfl⟩

/-- Makes greater integers `100`. -/
def capped : Filter where
  name := "capped"
  accepts := [.integer]
  apply value _ := .ok <| match value with
    | .number (.integer n) => .number (.integer (min n 100))
    | value => value

theorem runsOn_capped_iff {value : Json} : capped.RunsOn value ↔ Kind.ofValue value = .integer := by
  rw [Filter.runsOn_iff]
  simp [capped, Kind.accepts, Kind.includes]

/-- A property of the kinds, before its filters are looked at. -/
def share (kinds : List Kind) : Property :=
  { name := "share", identifier := "share", required := false : Property }.addCheck (.type kinds true)

/-- The built-in filter of texts, and one of integers. -/
def capping : Config := { filters := [Filters.trim, capped] }

/-- Two filters for shares, one for those that are texts and one for those that are integers. -/
def trimmedAndCapped : Json := .object [("filter", .array [.string "trim", .string "capped"])]

theorem applyFilters_incompatible_iff_share :
    (share [.number, .string]).declaredKinds? = some [.number, .string] ∧
      (∀ entry ∈ [Json.string "trim", .string "capped"], ∃ filter options, capping.filters.Asks entry filter options) ∧
      ∃ name, (applyFilters (share [.number, .string]) trimmedAndCapped).Halts capping {}
        (.refused (.incompatibleFilter "share" name "")) {} := by
  have hkinds : (share [.number, .string]).declaredKinds? = some [.number, .string] := by decide +kernel
  have hcapped : capping.filters.Asks (.string "capped") capped .null := .byName rfl
  have hasks : ∀ entry ∈ [Json.string "trim", .string "capped"],
      ∃ filter options, capping.filters.Asks entry filter options := by
    intro entry hmem
    simp only [List.mem_cons, List.not_mem_nil, or_false] at hmem
    rcases hmem with rfl | rfl
    · exact ⟨Filters.trim, _, .byName rfl⟩
    · exact ⟨capped, _, hcapped⟩
  refine ⟨hkinds, hasks, ?_⟩
  have hspec : trimmedAndCapped.get? "filter" = some (.array [.string "trim", .string "capped"]) := rfl
  refine (applyFilters_incompatible_iff hkinds hspec hasks).1.2
    ⟨_, List.mem_cons_of_mem _ List.mem_cons_self, capped, _, hcapped, fun value _ hruns => ?_⟩
  exact ⟨runsOn_capped_iff.1 hruns, by decide, by decide⟩

/-- A filter of integers is refused on numbers, and `3` is a number that it would run on. -/
theorem not_forall_incompatible_iff :
    ¬ ∀ (config : Config) (s : Session) (property : Property) (node entry options : Json) (filter : Filter)
      (kinds : List Kind), property.declaredKinds? = some kinds → node.get? "filter" = some entry →
      config.filters.Asks entry filter options →
      ((∃ name type, (applyFilters property node).Halts config s (.refused (.incompatibleFilter property.name name type))
          s) ↔
        ¬ ∃ value, (∃ kind ∈ kinds, kind.accepts value = true) ∧ filter.RunsOn value) := by
  intro h
  have hkinds : (share [.number]).declaredKinds? = some [.number] := by decide +kernel
  have hasks : capping.filters.Asks (.string "capped") capped .null := .byName rfl
  have hhalts : (applyFilters (share [.number]) (.object [("filter", .string "capped")])).Halts capping {}
      (.refused (.incompatibleFilter "share" "capped" "")) {} :=
    halts_applyFilter hkinds hasks (by decide)
  refine (h capping {} (share [.number]) _ _ _ capped _ hkinds rfl hasks).1 ⟨_, _, hhalts⟩
    ⟨.number (.integer 3), ⟨.number, List.mem_cons_self, rfl⟩, runsOn_capped_iff.2 rfl⟩

end Building
end SchemaTypes

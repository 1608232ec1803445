import SchemaTypes.Proofs.Building.Calls
import SchemaTypes.Proofs.Building.RootMembers
import SchemaTypes.Proofs.Building.UnionMembers
import SchemaTypes.Proofs.Evaluation.KindGuards
/-!
# A union accepts what its members accept

A node with a list of types and the node with one of them are each built as the only property of a document.  The
union builds a member for each of its kinds, and the single type builds the same member in a run of its own, so in the
end both ask for the same of values of that kind (`Building.Bears.admits_iff`).  The checks of the other members are
silent on these values.  Hence the union accepts what one of the types accepts, and no more
(`Session.union_accepts_iff`).

The keywords may refer to what other documents define, if that has been built.  Where they refer to what has not, the
other members are built before, and what they refer to is met in another order, which may leave a definition unfinished
(`Session.not_forall_union_accepts_iff`).
-/
namespace SchemaTypes
namespace Building

open Build Evaluation Naming

variable {config : Config} {source : Source} {name name' word : String} {node : Json} {members : Members}
  {checks family : List Check} {kind : Kind} {kinds : List Kind} {property : Property} {graph : Graph} {mode : Mode}
  {judge : Judge} {value : Json} {stored a b m s s' : Session} {bound : Nat} {root : TypeId} {member : PropertyId}
  {ground : Ground}

/-! ## What the checks of a typed node accept -/

theorem impartial_valueChecks {c : Check} (h : c ∈ valueChecks node) : Impartial c := by
  rcases mem_valueChecks h with ⟨values, rfl⟩ | ⟨value, rfl⟩
  · exact ⟨rfl, fun _ => rfl⟩
  · exact ⟨rfl, fun _ => rfl⟩

/-- They name no ids, so they are alike in any graphs. -/
theorem like_valueChecks {R P : PropertyId → PropertyId → Prop} {T : TypeId → TypeId → Prop} :
    List.Forall₂ (Check.Like R P T) (valueChecks node) (valueChecks node) := by
  refine List.forall₂_same.2 fun c hc => ?_
  rcases mem_valueChecks hc with ⟨values, rfl⟩ | ⟨value, rfl⟩
  · exact .same rfl rfl
  · exact .same rfl rfl

/-- Values must be of one of the kinds, and of the checks of kinds only those of their shape matter. -/
theorem admits_completed_iff (hshaped : Shaped checks) :
    Admits graph mode judge name (.required :: .type kinds false :: (valueChecks node ++ checks)) value ↔
      (∃ kind ∈ kinds, kind.accepts value = true) ∧ Admits graph mode judge name
        (valueChecks node ++ checks.filter (·.shape? = some (Kind.ofValue value).shape)) value := by
  have himpartial : ∀ c ∈ valueChecks node ++ checks, Impartial c := by
    intro c hc
    rcases List.mem_append.1 hc with hc | hc
    · exact impartial_valueChecks hc
    · obtain ⟨shape, hshape⟩ := hshaped c hc
      exact impartial_of_shape hshape
  have hvalue : (valueChecks node).filter (Check.fits (Kind.ofValue value).shape) = valueChecks node := by
    refine List.filter_eq_self.2 fun c hc => ?_
    rcases mem_valueChecks hc with ⟨values, rfl⟩ | ⟨value, rfl⟩ <;> rfl
  have hfits : checks.filter (Check.fits (Kind.ofValue value).shape) =
      checks.filter (·.shape? = some (Kind.ofValue value).shape) := by
    refine List.filter_congr fun c hc => ?_
    obtain ⟨shape, hshape⟩ := hshaped c hc
    unfold Check.fits
    simp [hshape]
  rw [admits_typed_iff, admits_fitting_iff himpartial, List.filter_append, hvalue, hfits]

/-- Checks that are alike accept the same. -/
theorem admits_congr {G H : Graph} {R P : PropertyId → PropertyId → Prop} {T : TypeId → TypeId → Prop}
    {others : List Check} (hl : IsLikeness G H R P T) (hlike : List.Forall₂ (Check.Like R P T) checks others)
    (mode : Mode) (value : Json) :
    Admits G mode (G.evaluateProperty mode) name checks value ↔
      Admits H mode (H.evaluateProperty mode) name' others value := by
  have hvalidators : Validators.Like R P T (checks.map Check.toValidator) (others.map Check.toValidator) := by
    unfold Validators.Like
    rw [List.forall₂_map_left_iff, List.forall₂_map_right_iff]
    exact hlike
  have hrel := hl.runValidators (hl.evaluateProperty mode) mode name name' hvalidators (some value)
  unfold Admits Accepted
  generalize runValidators G mode _ name _ _ = x at hrel ⊢
  generalize runValidators H mode _ name' _ _ = y at hrel ⊢
  cases hrel with
  | none => exact iff_of_false (fun ⟨_, h, _⟩ => nomatch h) fun ⟨_, h, _⟩ => nomatch h
  | some h => simp [h.isValid]

/-! ## What a type says -/

/-- The references of a typed node are those of its keywords. -/
theorem references_typedAs {type : Json} (htype : references type = []) :
    references (typedAs type members) ⊆ references (.object members) := by
  have hown : ownReference ("type", type) = [] := by
    unfold ownReference
    simp
  have hlist : references (typedAs type members) =
      ownReference ("type", type) ++ (references type ++ references (.object members)) := rfl
  rw [hlist, hown, htype]
  exact List.Subset.refl _

theorem references_words : ∀ words : List String, references (.array (words.map .string)) = []
  | [] => rfl
  | _ :: rest => references_words rest

theorem levels_object_le (type : Json) (members : Members) :
    (Json.object members).levels ≤ (typedAs type members).levels := by
  unfold typedAs Json.levels
  refine Nat.succ_le_succ ?_
  cases type <;> exact Nat.le_max_right _ _

/-! ## Wrapped nodes -/

/-- A typed node is a union if its type is a list. -/
theorem nodeProperty_union {build : Builder} {site : Site} {types : List Json} (hbare : Bare members) :
    nodeProperty build site (typedAs (.array types) members) =
      union build site (typedAs (.array types) members) types := by
  have hreference : (typedAs (.array types) members).get? "$ref" = none := hbare.get? _ (by decide)
  have htype : (typedAs (.array types) members).get? "type" = some (.array types) := rfl
  have hnormal : Keyword.normalize site.name (typedAs (.array types) members) = pure (typedAs (.array types) members) :=
    rfl
  unfold nodeProperty
  rw [hnormal, pure_bind, hreference]
  simp only [htype]

theorem nodeProperty_typed {build : Builder} {site : Site} (hbare : Bare members) :
    nodeProperty build site (typedAs (.string word) members) =
      typed build site (typedAs (.string word) members) word := by
  have hreference : (typedAs (.string word) members).get? "$ref" = none := hbare.get? _ (by decide)
  have htype : (typedAs (.string word) members).get? "type" = some (.string word) := rfl
  have hnormal : Keyword.normalize site.name (typedAs (.string word) members) = pure (typedAs (.string word) members) :=
    rfl
  unfold nodeProperty
  rw [hnormal, pure_bind, hreference]
  simp only [htype]

/-- The property of the wrapper has been built, and then the root has got it. -/
structure Housed (config : Config) (s : Session) (source : Source) (name : String) (node : Json) (bound : Nat)
    (member : PropertyId) (m s' : Session) : Prop where
  levels : node.levels ≤ bound
  runs : (nodeProperty (Building.property bound) (memberSite s source name) node).Runs config
    (begun (s.register source (wrapper name node)) source) member m
  hasProperty : m.graph.HasProperty member
  named : (m.graph.property member).name = name
  enclosed : Enclosed (rootId s) member m s'
  hasIdentifier : HasIdentifier (rootClass s source)
  endures : s.graph.EnduresIn s'.graph

/-- What is from before is there for every document of this source. -/
structure Provides (s : Session) (source : Source) (ground : Ground) : Prop where
  endures : ground.graph.EnduresIn s.graph
  served : ∀ value, ground.ServedIn source.key (begun (s.register source value) source)

theorem Provides.begun (h : Provides s source ground) (value : Json) :
    ground.graph.EnduresIn (Building.begun (s.register source value) source).graph :=
  Session.enduresIn_reserve h.endures _ _ _

theorem exists_housed (hcarries : config.naming.Carries) (hprovides : Provides s source ground)
    (hcovers : ground.Covers node) (h : s.process config source (wrapper name node) = (.ok root, s')) :
    root = rootId s ∧ ∃ bound member m, Housed config s source name node bound member m s' := by
  obtain ⟨member, m, hbuilt, henclose⟩ := (wraps_wrapper name node).runs_document.1 h
  have hscope := hasIdentifier_of_enclose henclose
  have hlevels := Nat.lt_of_lt_of_le (wraps_wrapper name node).levels_lt
    (levels_le_recursionBound s source (wrapper name node))
  generalize recursionBound (s.register source (wrapper name node)).documents = enough at hbuilt hlevels
  obtain ⟨bound, rfl⟩ : ∃ bound, enough = bound + 1 :=
    Nat.exists_eq_succ_of_ne_zero fun hzero => absurd (hzero ▸ hlevels) (Nat.not_lt_zero _)
  have hmaking : Making source (rootId (s.register source (wrapper name node))) m :=
    .of_member hbuilt (pending_of_calm (calm_property hbuilt hcarries (Nat.le_of_lt hlevels) hcovers
      (hprovides.served _) (hprovides.begun _) (hcarries.into hscope)))
  obtain ⟨rfl, henclosed⟩ := hmaking.runs_enclose henclose
  obtain ⟨hthere, hname⟩ := (names_property (bound + 1) _ trivial).1 member m hbuilt
  exact ⟨rfl, bound, member, m, Nat.le_of_lt_succ hlevels, hbuilt, hthere, hname, henclosed, hscope,
    Session.enduresIn_of_process h⟩

/-- The root accepts what the checks of its property admit. -/
theorem Housed.accepts_iff (h : Housed config s source name node bound member m s')
    (hposes : Poses (m.graph.property member) checks) (mode : Mode) (value : Json) :
    (s'.graph.evaluate mode (rootId s) (.object [(name, value)])).map (·.isValid) = some true ↔
      Admits s'.graph mode (s'.graph.evaluateProperty mode) name checks value := by
  rw [h.enclosed.evaluate h.hasProperty h.named, Graph.evaluateProperty_eq, h.enclosed.property member h.hasProperty,
    h.named, hposes.toList, Option.map_eq_some_iff]
  rfl

/-! ## Members in later graphs -/

/-- What has been made since the start is in the later graph as it was, and none of its types is redirected. -/
structure Outlives (start made later : Graph) : Prop where
  property : ∀ id, made.HasProperty id → later.property id = made.property id
  entry : ∀ id : TypeId, start.types.size ≤ id.index → made.HasType id → later.entry id = made.entry id
  redirect : ∀ id : TypeId, start.types.size ≤ id.index → (later.entry id).redirect = none

theorem Outlives.redirect_made {start made later : Graph} (h : Outlives start made later) {id : TypeId}
    (hid : start.types.size ≤ id.index) : (made.entry id).redirect = none := by
  by_cases hthere : made.HasType id
  · rw [← h.entry id hid hthere]
    exact h.redirect id hid
  · rw [Session.entry_of_le (Nat.le_of_not_lt hthere)]
    rfl

/-- On the way to the graph a member of the kind has been built from these keywords, with what is from before, and it
asks for the family. -/
structure Bears (config : Config) (ground : Ground) (bound : Nat) (site : Site) (members : Members) (kind : Kind)
    (family : List Check) (later : Graph) : Prop where
  endures : ground.graph.EnduresIn later
  exists_run : ∃ type draft a b, ground.ServedIn site.scope.document a ∧ ground.graph.EnduresIn a.graph ∧
    (Building.member (Building.property bound) site (typedAs type members) kind).Runs config a draft b ∧
      Poses draft (.required :: .type [kind] false :: family) ∧ b.Closed ∧ b.graph.Knows draft ∧
      Outlives a.graph b.graph later

theorem bears_of_runs (scene : Scene) {type : Json} {site : Site} {draft : Property} {later : Graph}
    (hdocument : site.scope.document = scene.document) (hspelled : references (typedAs type members) ⊆ scene.spelled)
    (hstands : scene.Stands a) (hserved : ground.ServedIn site.scope.document a)
    (hground : ground.graph.EnduresIn a.graph) (hlater : ground.graph.EnduresIn later)
    (hrun : (Building.member (Building.property bound) site (typedAs type members) kind).Runs scene.config a draft b)
    (hposes : Poses draft (.required :: .type [kind] false :: family)) (houtlives : Outlives a.graph b.graph later) :
    Bears scene.config ground bound site members kind family later := by
  have hyields := Scene.yields_member (Scene.accepts_property bound scene) hdocument hspelled kind hstands
  obtain ⟨hwrites, _, hdraft⟩ := hyields.1 draft b hrun
  exact ⟨hlater, type, draft, a, b, hserved, hground, hrun, hposes, hwrites.closed hstands.closed, hdraft.knows,
    houtlives⟩

/-- **The same member, built in two runs,** asks for the same in whatever the graphs have become since. -/
theorem Bears.admits_iff {bound' : Nat} {site : Site} {family' : List Check} {later later' : Graph}
    (h : Bears config ground bound site members kind family later)
    (h' : Bears config ground bound' site members kind family' later') (hcarries : config.naming.Carries)
    (hbare : Bare members) (hcovers : ground.Covers (.object members)) (hscope : HasIdentifier site.scope.className)
    (hlevels : (Json.object members).levels ≤ bound + 1) (hlevels' : (Json.object members).levels ≤ bound' + 1)
    (mode : Mode) (value : Json) :
    Admits later mode (later.evaluateProperty mode) name (valueChecks node ++ family) value ↔
      Admits later' mode (later'.evaluateProperty mode) name' (valueChecks node ++ family') value := by
  obtain ⟨type, draft, a, b, hserved, hground, hrun, hposes, hclosed, hknows, houtlives⟩ := h.exists_run
  obtain ⟨type', draft', c, d, hserved', hground', hrun', hposes', _, _, houtlives'⟩ := h'.exists_run
  let t : Tandem := .starting config hcarries (site.scope.document, site.scope.document) hground hground'
  have hshares : t.Shares (.object members) (Building.property bound) (Building.property bound') :=
    (Tandem.goes_property bound bound').shares hlevels hlevels' hcovers rfl (mild_of_bare hbare)
  have hgoes : t.Goes True (Building.member (Building.property bound) site (typedAs type members) kind)
      (Building.member (Building.property bound') site (typedAs type' members) kind) t.Drafts :=
    Tandem.goes_typedMember hbare hshares
      ⟨rfl, Iff.rfl, fun _ => ⟨rfl, rfl⟩, hcarries.into hscope, hcarries.into hscope⟩ kind
  rcases (hgoes a c ⟨hserved, hserved'⟩ fun _ => Tandem.coupled_start rfl rfl hground hground').cases with
    ⟨draft₁, draft₂, m₁, m₂, C, hfirst, hsecond, hbetween, hdrafts⟩ | ⟨hnot, _⟩
  · obtain ⟨rfl, rfl⟩ := hfirst.unique hrun
    obtain ⟨rfl, rfl⟩ := hsecond.unique hrun'
    have hC : C := hbetween.kept trivial ⟨fun _ hid => houtlives.redirect_made hid,
      fun _ hid => houtlives'.redirect_made hid⟩
    have hcoupled := hbetween.coupled hC
    have hkeeps : t.Keeps m₁.graph m₂.graph later later' := by
      refine ⟨h.endures, h'.endures, fun i j hij hi => ?_, fun i j hij hi => ?_⟩
      · exact ⟨houtlives.property i hi, houtlives'.property j ((hcoupled.hasProperty_iff hij.links).1 hi)⟩
      · have hj := (hcoupled.hasType_iff (Or.inl hij)).1 hi
        obtain ⟨n, hfirst, hsecond⟩ := hij
        exact ⟨houtlives.entry i (hfirst ▸ Nat.le_add_right _ _) hi,
          houtlives'.entry j (hsecond ▸ Nat.le_add_right _ _) hj⟩
    have hlikeness := hcoupled.isLikeness hkeeps hclosed.properties hclosed.types
    have hpeers := Tandem.forall₂_like (hdrafts.kin hC).validators.toList hknows.checks
    unfold Validators.Like at hpeers
    rw [hposes.toList, hposes'.toList, List.forall₂_map_left_iff, List.forall₂_map_right_iff] at hpeers
    have hfamilies := (List.forall₂_cons.1 (List.forall₂_cons.1 hpeers).2).2
    exact admits_congr hlikeness (Check.forall₂_append like_valueChecks hfamilies) mode value
  · exact absurd hrun (hnot _ _)

/-! ## Unions and single types -/

/-- The scene of the node that a document wraps. -/
def wrapperScene (config : Config) (s : Session) (source : Source) (name : String) (node : Json) : Scene :=
  ⟨config, (s.register source (wrapper name node)).documents, source.key, references node⟩

/-- What has been built between the reserving of the root and its getting the property is there in the end. -/
theorem Housed.outlives (h : Housed config s source name node bound member m s')
    (hstart : (begun (s.register source (wrapper name node)) source).graph.EnduresIn a.graph)
    (hlater : b.graph.EnduresIn m.graph) (hnone : s.NoneRedirected s') : Outlives a.graph b.graph s'.graph := by
  have hsize : (rootId s).index < a.graph.types.size :=
    Nat.lt_of_lt_of_le (Nat.lt_of_lt_of_eq (Nat.lt_succ_self _) (Array.size_push _).symm) hstart.grows.types
  refine ⟨fun id hid => ?_, fun id hle hid => ?_, fun id hle => hnone id (Nat.le_trans (Nat.le_of_lt hsize) hle)⟩
  · exact (h.enclosed.property id (hid.grows hlater.grows)).trans (hlater.property id hid)
  · refine (h.enclosed.entry id ?_).trans (hlater.entry id hid)
    rintro rfl
    exact absurd hsize (Nat.not_lt_of_le hle)

/-- A union has checks of its own and the families of its members, one of each shape. -/
theorem Housed.of_union {types : List Json}
    (h : Housed config s source name (typedAs (.array types) members) bound member m s')
    (horderly : s.Orderly config) (hcarries : config.naming.Carries) (hprovides : Provides s source ground)
    (hcovers : ground.Covers (.object members)) (hbare : Bare members) (hnone : s.NoneRedirected s') :
    ∃ kinds checks, (∀ kind, kind ∈ kinds ↔ ∃ word, .string word ∈ types ∧ Kind.ofKeyword? word = some kind) ∧
      Shaped checks ∧
      Poses (m.graph.property member) (.required :: .type kinds false :: (valueChecks (.object members) ++ checks)) ∧
      ∀ kind ∈ kinds, kind ≠ .null → Bears config ground bound (memberSite s source name) members kind
        (checks.filter (·.shape? = some kind.shape)) s'.graph := by
  have hruns := h.runs
  rw [nodeProperty_union hbare] at hruns
  have hcalm : KeepsCalm config (Building.property bound) (memberSite s source name) (typedAs (.array types) members)
      (begun (s.register source (wrapper name (typedAs (.array types) members))) source) :=
    fun hendures hcalm => calm_member hbare hcarries (hcarries.into h.hasIdentifier)
      (Nat.le_succ_of_le (Nat.le_trans (levels_object_le _ members) h.levels)) hcovers
      ((hprovides.served _).calm hcalm) ((hprovides.begun _).trans hendures)
  obtain ⟨kinds, checks, n, hkinds, hgathers, hadded⟩ := added_union
    (wrapperScene config s source name (typedAs (.array types) members)) hcalm hbare rfl rfl (List.Subset.refl _)
    (stands_begun horderly source _ _) hruns
  refine ⟨kinds, checks, hkinds, hgathers.shaped, hadded.poses, fun kind hmem hnull => ?_⟩
  have hcontributes := hgathers.contributes kind (List.mem_filter.2 ⟨hmem, decide_eq_true hnull⟩)
  obtain ⟨draft, a, b, hstart, hstill, hstands, hrun, hb, hposes⟩ := hcontributes.run
  exact bears_of_runs _ rfl (List.Subset.refl _) hstands ((hprovides.served _).calm hstill)
    ((hprovides.begun _).trans hstart) (hprovides.endures.trans h.endures) hrun hposes
    (h.outlives hstart (hb.trans hadded.endures) hnone)

/-- A node of one type has the family of its member. -/
theorem Housed.of_typed (h : Housed config s source name (typedAs (.string word) members) bound member m s')
    (horderly : s.Orderly config) (hprovides : Provides s source ground) (hbare : Bare members)
    (hnone : s.NoneRedirected s') :
    ∃ kind family, Kind.ofKeyword? word = some kind ∧ Check.IsFamily kind family ∧
      Poses (m.graph.property member) (.required :: .type [kind] false :: (valueChecks (.object members) ++ family)) ∧
      Bears config ground bound (memberSite s source name) members kind family s'.graph := by
  have hruns := h.runs
  rw [nodeProperty_typed hbare] at hruns
  obtain ⟨kind, draft, family, n, hkind, hmember, hfamily, hposes, hadded⟩ := added_typed hbare rfl rfl hruns
  refine ⟨kind, family, hkind, hfamily, hadded.poses, ?_⟩
  exact bears_of_runs (wrapperScene config s source name (typedAs (.string word) members)) rfl
    (List.Subset.refl _) (stands_begun horderly source _ _) (hprovides.served _) (hprovides.begun _)
    (hprovides.endures.trans h.endures) hmember hposes (h.outlives (.refl _) hadded.endures hnone)

/-- No check is one of null alone. -/
theorem shape?_ne_null (c : Check) : c.shape? ≠ some Kind.null.shape := by
  cases c <;> nofun

theorem filter_null (checks : List Check) : checks.filter (·.shape? = some Kind.null.shape) = [] :=
  List.filter_eq_nil_iff.2 fun c _ => by simpa using shape?_ne_null c

/-- What a union asks of values of one of its kinds beyond their kind is what the single type asks. -/
theorem admits_kind_iff {types : List Json} {n : Session} {bound' : Nat} {member' : PropertyId} {later later' : Session}
    (hunion : Housed config s source name (typedAs (.array types) members) bound member m later)
    (hsingle : Housed config s source name (typedAs (.string word) members) bound' member' n later')
    (hcarries : config.naming.Carries) (hbare : Bare members) (hcovers : ground.Covers (.object members))
    (hfamily : Check.IsFamily kind family)
    (hbears : kind ≠ .null → Bears config ground bound (memberSite s source name) members kind
      (checks.filter (·.shape? = some kind.shape)) later.graph)
    (hbears' : Bears config ground bound' (memberSite s source name) members kind family later'.graph) (mode : Mode)
    (value : Json) :
    Admits later.graph mode (later.graph.evaluateProperty mode) name
        (valueChecks (.object members) ++ checks.filter (·.shape? = some kind.shape)) value ↔
      Admits later'.graph mode (later'.graph.evaluateProperty mode) name (valueChecks (.object members) ++ family)
        value := by
  by_cases hnull : kind = .null
  · subst hnull
    have hnothing : IsLikeness later.graph later'.graph (fun _ _ => False) (fun _ _ => False) (fun _ _ => False) :=
      ⟨nofun, nofun, nofun⟩
    obtain rfl : family = [] := List.eq_nil_iff_forall_not_mem.2 fun c hc => shape?_ne_null c (hfamily.shape c hc)
    rw [filter_null]
    exact admits_congr hnothing (Check.forall₂_append like_valueChecks .nil) mode value
  · exact (hbears hnull).admits_iff hbears' hcarries hbare hcovers hunion.hasIdentifier
      (Nat.le_succ_of_le (Nat.le_trans (levels_object_le _ members) hunion.levels))
      (Nat.le_succ_of_le (Nat.le_trans (levels_object_le _ members) hsingle.levels)) mode value

/-- The document of one of the types accepts the values of its kind that the checks of the union for them admit. -/
theorem Housed.accepts_typed_iff {types : List Json}
    (hunion : Housed config s source name (typedAs (.array types) members) bound member m s')
    (hkinds : ∀ kind, kind ∈ kinds ↔ ∃ word, .string word ∈ types ∧ Kind.ofKeyword? word = some kind)
    (hbears : ∀ kind ∈ kinds, kind ≠ .null → Bears config ground bound (memberSite s source name) members kind
      (checks.filter (·.shape? = some kind.shape)) s'.graph)
    (hcarries : config.naming.Carries) (horderly : s.Orderly config) (hprovides : Provides s source ground)
    (hbare : Bare members) (hcovers : ground.Covers (.object members)) (hmem : .string word ∈ types)
    (hsingle : s.Builds config source (wrapper name (typedAs (.string word) members))) (mode : Mode) (value : Json) :
    ∃ kind ∈ kinds, Kind.ofKeyword? word = some kind ∧
      (s.Accepts config source (wrapper name (typedAs (.string word) members)) mode (.object [(name, value)]) ↔
        kind.accepts value = true ∧ Admits s'.graph mode (s'.graph.evaluateProperty mode) name
          (valueChecks (.object members) ++ checks.filter (·.shape? = some (Kind.ofValue value).shape)) value) := by
  obtain ⟨root, later, hdone, hstraight⟩ := hsingle
  obtain ⟨rfl, bound', member', n, hhoused⟩ :=
    exists_housed hcarries hprovides (hcovers.subset (references_typedAs rfl)) hdone
  obtain ⟨kind, family, hkind, hfamily, hposes, hbears'⟩ := hhoused.of_typed horderly hprovides hbare hstraight
  have hmember : kind ∈ kinds := (hkinds kind).2 ⟨word, hmem, hkind⟩
  refine ⟨kind, hmember, hkind, ?_⟩
  rw [Session.accepts_iff_of_process hdone, hhoused.accepts_iff hposes,
    admits_completed_iff (shaped_of_family hfamily)]
  simp only [List.mem_singleton, exists_eq_left]
  refine and_congr_right fun haccepts => ?_
  have hall : family.filter (·.shape? = some kind.shape) = family :=
    List.filter_eq_self.2 fun c hc => decide_eq_true (hfamily.shape c hc)
  rw [Kind.shape_eq_of_accepts haccepts, hall]
  exact (admits_kind_iff hunion hhoused hcarries hbare hcovers hfamily (hbears kind hmember) hbears' mode value).symm

end Building

namespace Session

open Building Evaluation

variable {config : Config} {s s' : Session} {source : Source} {name word : String} {members : Members}
  {document : Json} {root : TypeId}

/-- **A union accepts what its members accept.**  For keywords without compositions and filters, whose references are to
definitions of other documents that have been built, let the node with a list of types and the node with each of these
types alone be built as the required property of a document, after the same calls, and let no type be redirected in
these runs.  Then a value is accepted under the list if and only if it is accepted under one of the types. -/
theorem union_accepts_iff (hcarries : config.naming.Carries) (calls : List Call) (source : Source) {words : List String}
    (hbare : Bare members) (hrefers : (performAll config calls).RefersAbroad source
      (wrapper name (typedAs (.array (words.map .string)) members)) (.object members))
    (hunion : (performAll config calls).Builds config source
      (wrapper name (typedAs (.array (words.map .string)) members)))
    (hsingle : ∀ word ∈ words, (performAll config calls).Builds config source
      (wrapper name (typedAs (.string word) members))) (mode : Mode) (value : Json) :
    (performAll config calls).Accepts config source (wrapper name (typedAs (.array (words.map .string)) members)) mode
        (.object [(name, value)]) ↔
      ∃ word ∈ words, (performAll config calls).Accepts config source (wrapper name (typedAs (.string word) members))
        mode (.object [(name, value)]) := by
  have horderly := orderly_performAll config calls
  have hsettled := (collapsed_performAll config calls).settled
  generalize performAll config calls = s at horderly hsettled hrefers hunion hsingle
  have hcovers : (abroad s source _ source.key horderly.closed hsettled).Covers (.object members) :=
    covers_abroad hrefers
  have hprovides : Provides s source (abroad s source (wrapper name (typedAs (.array (words.map .string)) members))
      source.key horderly.closed hsettled) := ⟨.refl _, servedIn_abroad⟩
  have hlist : references (.array (words.map .string)) = [] := references_words words
  obtain ⟨root, s₁, hdone, hstraight⟩ := hunion
  obtain ⟨rfl, bound, member, m, hhoused⟩ :=
    exists_housed hcarries hprovides (hcovers.subset (references_typedAs hlist)) hdone
  obtain ⟨kinds, checks, hkinds, hshaped, hposes, hbears⟩ :=
    hhoused.of_union horderly hcarries hprovides hcovers hbare hstraight
  have hword := fun word (hmem : word ∈ words) => hhoused.accepts_typed_iff hkinds hbears hcarries horderly hprovides
    hbare hcovers (List.mem_map_of_mem hmem) (hsingle word hmem) mode value
  rw [accepts_iff_of_process hdone, hhoused.accepts_iff hposes, admits_completed_iff hshaped]
  constructor
  · rintro ⟨⟨kind, hmem, haccepts⟩, hadmits⟩
    obtain ⟨word, hlisted, hkind⟩ := (hkinds kind).1 hmem
    obtain ⟨word', hmem', heq⟩ := List.mem_map.1 hlisted
    obtain rfl := Json.string.inj heq
    obtain ⟨kind', -, hkind', hiff⟩ := hword _ hmem'
    obtain rfl := Option.some.inj (hkind'.symm.trans hkind)
    exact ⟨_, hmem', hiff.2 ⟨haccepts, hadmits⟩⟩
  · rintro ⟨word, hmem, haccepted⟩
    obtain ⟨kind, hmember, -, hiff⟩ := hword word hmem
    obtain ⟨haccepts, hadmits⟩ := hiff.1 haccepted
    exact ⟨⟨kind, hmember, haccepts⟩, hadmits⟩

/-! ## Unions that do, and one that does not -/

/-- Items that are what another document is, and a least value for numbers. -/
def bounded : Members := [("items", .object [("$ref", .string "c")]), ("minimum", .ofNat 3)]

/-- A document whose only property is a list or a number, or either of these alone. -/
def boundedAs (type : Json) : Json := wrapper "x" (typedAs type bounded)

/-- What comes of it once the other document has been processed. -/
def boundedRun (type : Json) : Except Halt TypeId × Session :=
  (performAll oneName trusted).process oneName ⟨"t", "", "T"⟩ (boundedAs type)

def listOrNumber : Json := .array (["array", "integer"].map .string)

set_option maxRecDepth 100000 in
/-- The union takes a number that is large enough and declines a list of something else, as the single types do. -/
theorem union_accepts_iff_bounded :
    (∀ value, (performAll oneName trusted).Accepts oneName ⟨"t", "", "T"⟩ (boundedAs listOrNumber) .collectAll
        (.object [("x", value)]) ↔
      ∃ word ∈ ["array", "integer"], (performAll oneName trusted).Accepts oneName ⟨"t", "", "T"⟩
        (boundedAs (.string word)) .collectAll (.object [("x", value)])) ∧
      (performAll oneName trusted).Accepts oneName ⟨"t", "", "T"⟩ (boundedAs listOrNumber) .collectAll
        (.object [("x", .ofNat 5)]) ∧
      ¬ (performAll oneName trusted).Accepts oneName ⟨"t", "", "T"⟩ (boundedAs listOrNumber) .collectAll
        (.object [("x", .array [.object []])]) := by
  have hfacts : (∀ type ∈ [listOrNumber, .string "array", .string "integer"],
      (boundedRun type).1.toOption = some ⟨1⟩ ∧
        (boundedRun type).2.graph.types.toList.all (·.redirect.isNone) = true) ∧
      (Evaluation.run (boundedRun listOrNumber).2.graph .collectAll 9 ⟨1⟩
        (.object [("x", .ofNat 5)])).map (·.isValid) = some true ∧
      (Evaluation.run (boundedRun listOrNumber).2.graph .collectAll 9 ⟨1⟩
        (.object [("x", .array [.object []])])).map (·.isValid) = some false ∧
      references (.object bounded) = ["c"] := by
    decide +kernel
  obtain ⟨hprocessed, haccepts, hdeclines, hreferences⟩ := hfacts
  have hbuilds : ∀ type ∈ [listOrNumber, .string "array", .string "integer"],
      (performAll oneName trusted).Builds oneName ⟨"t", "", "T"⟩ (boundedAs type) :=
    fun type htype => builds_of_run (hprocessed type htype).1 (hprocessed type htype).2
  have hsingle : ∀ word ∈ ["array", "integer"],
      (performAll oneName trusted).Builds oneName ⟨"t", "", "T"⟩ (boundedAs (.string word)) := by
    intro word hword
    refine hbuilds _ (List.mem_cons_of_mem _ ?_)
    rcases List.mem_pair.1 hword with rfl | rfl
    · exact List.mem_cons_self
    · exact List.mem_cons_of_mem _ List.mem_cons_self
  have hdone := (hprocessed _ List.mem_cons_self).1
  refine ⟨fun value => ?_, (accepts_iff_of_run hdone haccepts).2 rfl,
    fun haccepted => nomatch (accepts_iff_of_run hdone hdeclines).1 haccepted⟩
  exact union_accepts_iff carries_oneName trusted ⟨"t", "", "T"⟩ (by decide) (refersAbroad_trusted hreferences)
    (hbuilds _ List.mem_cons_self) hsingle .collectAll value

/-- A list whose items are the second definition, which is an alias of the first. -/
def alternating : Members :=
  [("a", .object [("type", .string "array"), ("items", .object [("$ref", .string "#/definitions/b")])]),
    ("b", .object [("$ref", .string "#/definitions/a")])]

/-- Keywords that refer to the first definition from an object and to the second one from a list. -/
def crossing : Members :=
  [("properties", .object [("p", .object [("$ref", .string "#/definitions/a")])]),
    ("items", .object [("$ref", .string "#/definitions/b")])]

def crossingAs (type : Json) : Json := wrapperAmong alternating "x" (typedAs type crossing)

set_option maxRecDepth 100000 in
/-- **With references a union may accept more.**  Its object member meets the list first, while the alias of that is
still in progress, and so the alias never comes to ask for anything. -/
theorem not_forall_union_accepts_iff : ¬ ∀ (config : Config) (calls : List Call) (source : Source)
    (definitions members : Members) (name : String) (words : List String) (mode : Mode) (value : Json),
    config.naming.Carries → Bare members →
    (performAll config calls).Builds config source
      (wrapperAmong definitions name (typedAs (.array (words.map .string)) members)) →
    (∀ word ∈ words, (performAll config calls).Builds config source
      (wrapperAmong definitions name (typedAs (.string word) members))) →
    ((performAll config calls).Accepts config source
        (wrapperAmong definitions name (typedAs (.array (words.map .string)) members)) mode (.object [(name, value)]) ↔
      ∃ word ∈ words, (performAll config calls).Accepts config source
        (wrapperAmong definitions name (typedAs (.string word) members)) mode (.object [(name, value)])) := by
  intro h
  have hunion : (process {} oneName ⟨"t", "", "T"⟩ (crossingAs (.array (["object", "array"].map .string)))).1.toOption =
        some ⟨0⟩ ∧
      (process {} oneName ⟨"t", "", "T"⟩
        (crossingAs (.array (["object", "array"].map .string)))).2.graph.types.toList.all (·.redirect.isNone) = true ∧
      (Evaluation.run (process {} oneName ⟨"t", "", "T"⟩
        (crossingAs (.array (["object", "array"].map .string)))).2.graph .collectAll 9 ⟨0⟩
        (.object [("x", .array [.array [.ofNat 5]])])).map (·.isValid) = some true := by
    decide +kernel
  have hsingle : ∀ word ∈ ["object", "array"],
      (process {} oneName ⟨"t", "", "T"⟩ (crossingAs (.string word))).1.toOption = some ⟨0⟩ ∧
        (process {} oneName ⟨"t", "", "T"⟩ (crossingAs (.string word))).2.graph.types.toList.all (·.redirect.isNone) =
          true ∧
        (Evaluation.run (process {} oneName ⟨"t", "", "T"⟩ (crossingAs (.string word))).2.graph .collectAll 9 ⟨0⟩
          (.object [("x", .array [.array [.ofNat 5]])])).map (·.isValid) = some false := by
    decide +kernel
  have haccepts : Accepts oneName {} ⟨"t", "", "T"⟩ (crossingAs (.array (["object", "array"].map .string))) .collectAll
      (.object [("x", .array [.array [.ofNat 5]])]) := (accepts_iff_of_run hunion.1 hunion.2.2).2 rfl
  have hdeclines : ∀ word ∈ ["object", "array"], ¬ Accepts oneName {} ⟨"t", "", "T"⟩ (crossingAs (.string word))
      .collectAll (.object [("x", .array [.array [.ofNat 5]])]) :=
    fun word hword haccepted => nomatch (accepts_iff_of_run (hsingle word hword).1 (hsingle word hword).2.2).1 haccepted
  have hbuilds : Builds oneName {} ⟨"t", "", "T"⟩ (crossingAs (.array (["object", "array"].map .string))) :=
    builds_of_run hunion.1 hunion.2.1
  have hbuilds' : ∀ word ∈ ["object", "array"], Builds oneName {} ⟨"t", "", "T"⟩ (crossingAs (.string word)) :=
    fun word hword => builds_of_run (hsingle word hword).1 (hsingle word hword).2.1
  have hiff := h oneName [] ⟨"t", "", "T"⟩ alternating crossing "x" ["object", "array"] .collectAll
    (.array [.array [.ofNat 5]]) carries_oneName (by decide) hbuilds hbuilds'
  obtain ⟨word, hword, haccepted⟩ := hiff.1 haccepts
  exact hdeclines word hword haccepted

end Session
end SchemaTypes

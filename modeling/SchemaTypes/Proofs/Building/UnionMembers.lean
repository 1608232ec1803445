import SchemaTypes.Proofs.Building.TandemNodes
import SchemaTypes.Proofs.Building.UnionChecks
import SchemaTypes.Proofs.Building.Wrappers
/-!
# Unions and their members

A node of one type is built as a member of its kind and then completed (`added_typed`).  A union builds a member of
each of its kinds, gathers their checks (`Gathers.step`), and is completed by the same keywords (`added_union`).
Members that are built from the same keywords go in tandem, whatever else their nodes say about types
(`Tandem.goes_typedMember`).
-/
namespace SchemaTypes
namespace Building

open Build Naming

variable {config : Config} {kind : Kind} {kinds : List Kind} {family checks others : List Check}
  {build build' : Builder} {site site' : Site} {type type' : Json} {members : Members} {property draft : Property}
  {s s' m : Session} {id : PropertyId} {word : String} {bound : Nat}

/-! ## Members -/

theorem ofKind_typedAs (build : Builder) (site : Site) (type : Json) (members : Members) (kind : Kind) :
    ofKind build site (typedAs type members) kind = ofKind build site (.object members) kind := by
  cases kind <;> rfl

theorem member_object (hbare : Bare members) : member build site (typedAs type members) .object =
    (reserveFor { site with merged := false } (typedAs type members) >>=
      materialize build { site with merged := false } (.object members)) := by
  unfold member
  rw [if_pos rfl, hbare.withoutCompositions]
  rfl

theorem member_of_ne (hne : kind ≠ .object) :
    member build site (typedAs type members) kind = ofKind build site (.object members) kind := by
  unfold member
  rw [if_neg hne, ofKind_typedAs]

/-- A required member has its presence and type checks, and then those of the family of its kind. -/
theorem poses_member (hbare : Bare members) (hrequired : site.required = true)
    (h : (member build site (typedAs type members) kind).Runs config s property s') :
    ∃ family, Check.IsFamily kind family ∧ Poses property (.required :: .type [kind] false :: family) := by
  by_cases hobject : kind = .object
  · subst hobject
    rw [member_object hbare] at h
    unfold materialize at h
    obtain ⟨_, m₁, _, hrest₁⟩ := runs_bind.1 h
    rw [runs_graph_bind] at hrest₁
    obtain ⟨_, m₂, _, hrest₂⟩ := runs_bind.1 hrest₁
    obtain ⟨held, m₃, _, hinstance⟩ := runs_bind.1 hrest₂
    have hfamily : Check.IsFamily .object [.instanceOf held] :=
      ⟨fun c hc => List.mem_singleton.1 hc ▸ rfl, List.pairwise_singleton _ _⟩
    simp only [hrequired] at hinstance
    exact ⟨_, hfamily, (poses_instanceProperty hinstance).2.2⟩
  · rw [member_of_ne hobject] at h
    exact poses_ofKind hrequired h

/-- **Members of a kind go in tandem**, whatever their types say besides. -/
theorem Tandem.goes_typedMember {t : Tandem} {C : Prop} (hbare : Bare members)
    (hb : t.Shares (.object members) build build') (hsites : t.Abreast site site') (kind : Kind) :
    t.Goes C (member build site (typedAs type members) kind) (member build' site' (typedAs type' members) kind)
      t.Drafts := by
  by_cases hobject : kind = .object
  · subst hobject
    have hheld : t.Abreast { site with merged := false } { site' with merged := false } :=
      ⟨hsites.required, hsites.name, hsites.scopes⟩
    rw [member_object hbare, member_object hbare]
    exact goes_heldAs hb hheld (typedAs type members) (typedAs type' members)
  · rw [member_of_ne hobject, member_of_ne hobject]
    exact goes_ofKind hb hsites kind

/-- Keywords that say nothing about types leave them to the node. -/
theorem mild_of_bare (hbare : Bare members) : Mild (.object members) := fun _ htype =>
  nomatch (hbare "type" List.mem_cons_self).symm.trans htype

/-- A member whose references are to definitions from before changes no definitions. -/
theorem calm_member {ground : Ground} (hbare : Bare members) (hcarries : config.naming.Carries)
    (hscope : config.naming.CarriesInto site.scope.className) (hlevels : (Json.object members).levels ≤ bound + 1)
    (hcovers : ground.Covers (.object members)) (hserved : ground.ServedIn site.scope.document s)
    (hendures : ground.graph.EnduresIn s.graph)
    (h : (member (Building.property bound) site (typedAs type members) kind).Runs config s property s') :
    s.Calm s' := by
  let t : Tandem := .starting config hcarries (site.scope.document, site.scope.document) hendures hendures
  have hshares : t.Shares (.object members) (Building.property bound) (Building.property bound) :=
    (Tandem.goes_property bound bound).shares hlevels hlevels hcovers rfl (mild_of_bare hbare)
  have hgoes : t.Goes True (member (Building.property bound) site (typedAs type members) kind)
      (member (Building.property bound) site (typedAs type members) kind) t.Drafts :=
    Tandem.goes_typedMember hbare hshares ⟨rfl, Iff.rfl, fun _ => ⟨rfl, rfl⟩, hscope, hscope⟩ kind
  exact hgoes.calm ⟨hserved, hserved⟩ (fun _ => Tandem.coupled_start rfl rfl hendures hendures) h

/-! ## What a node adds -/

/-- What keeps to every course leaves all that is there as it is. -/
theorem enduresIn_of_keeps {α : Type} {x : Build α} {q : Course → α → Prop} {a : α}
    (hx : ∀ course : Course, course.Keeps x (q course)) (h : x.Runs config s a s') : s.graph.EnduresIn s'.graph :=
  ((hx ⟨config, s, [], s⟩ s (.start (.refl s) fun _ hid => absurd hid List.not_mem_nil)).1 a s' h).1.since.endures

/-- The property has been added, and all that was there is as it was. -/
structure Added (checks : List Check) (s : Session) (id : PropertyId) (s' : Session) : Prop where
  endures : s.graph.EnduresIn s'.graph
  hasProperty : s'.graph.HasProperty id
  poses : Poses (s'.graph.property id) checks

theorem added_addProperty (hposes : Poses property checks) (h : (Build.addProperty property).Runs config s id s') :
    Added checks s id s' := by
  have hendures := enduresIn_of_keeps (fun _ => Course.keeps_addProperty) h
  obtain ⟨rfl, rfl⟩ := runs_addProperty.1 h
  exact ⟨hendures, Session.hasProperty_addProperty _ _, (Graph.property_addProperty _ _).symm ▸ hposes⟩

/-- A draft is completed by the keywords every property has. -/
theorem added_complement (hbare : Bare members) (hrequired : site.required = true) (hshaped : Shaped family)
    (hposes : Poses draft (.required :: .type kinds false :: family))
    (h : (complement build site (typedAs type members) draft).Runs config s id s') :
    Added (.required :: .type kinds false :: (valueChecks (.object members) ++ family)) s id s' := by
  unfold complement at h
  rw [hrequired] at h
  obtain ⟨property, m, hvalue, hrest⟩ := runs_bind.1 h
  obtain ⟨rfl, hvalued⟩ := poses_applyValueKeywords rfl (hbare.get? type (by decide)) hshaped hposes hvalue
  rw [applyCompositions_of_bare hbare hvalued (isComposed_completed hshaped), runs_pure_bind] at hrest
  exact added_addProperty hvalued hrest

/-- **A node of one type** is built as a member of its kind, and then completed. -/
theorem added_typed (hbare : Bare members) (hrequired : site.required = true) (hmerged : site.merged = false)
    (h : (typed build site (typedAs type members) word).Runs config s id s') :
    ∃ kind property family m, Kind.ofKeyword? word = some kind ∧
      (member build site (typedAs type members) kind).Runs config s property m ∧ Check.IsFamily kind family ∧
      Poses property (.required :: .type [kind] false :: family) ∧
      Added (.required :: .type [kind] false :: (valueChecks (.object members) ++ family)) m id s' := by
  unfold typed at h
  split at h
  · exact absurd h not_runs_refuse
  · rename_i hkind
    rw [object_eq, hrequired] at h
    have hsite : { site with merged := false } = site := by
      cases site
      exact congrArg _ hmerged.symm
    have hheld : member build site (typedAs type members) .object =
        (reserveFor site (typedAs type members) >>= materialize build site (typedAs type members)) := by
      rw [member_object hbare, hsite]
      rfl
    rw [← hheld] at h
    obtain ⟨property, m, hmember, hrest⟩ := runs_bind.1 h
    obtain ⟨family, hfamily, hposes⟩ := poses_member hbare hrequired hmember
    obtain ⟨completed, m', hvalue, hadd⟩ := runs_bind.1 hrest
    obtain ⟨rfl, hvalued⟩ :=
      poses_applyValueKeywords rfl (hbare.get? type (by decide)) (shaped_of_family hfamily) hposes hvalue
    exact ⟨.object, property, family, m', hkind, hmember, hfamily, hposes, added_addProperty hvalued hadd⟩
  · rename_i kind hne hkind
    obtain ⟨property, m, hmember, hrest⟩ := runs_bind.1 h
    rw [ofKind_typedAs, ← member_of_ne hne] at hmember
    obtain ⟨family, hfamily, hposes⟩ := poses_member hbare hrequired hmember
    exact ⟨kind, property, family, m, hkind, hmember, hfamily, hposes,
      added_complement hbare hrequired (shaped_of_family hfamily) hposes hrest⟩

/-! ## The kinds of a union -/

/-- One entry of a list of types. -/
def addKind (name : String) (kinds : List Kind) (type : Json) : Build (List Kind) := do
  match type with
  | .string word =>
    match Kind.ofKeyword? word with
    | some kind => return if kinds.contains kind then kinds else kinds ++ [kind]
    | none => Build.refuse (.unsupportedType name word)
  | _ => Build.malformed name "type entries must be strings"

theorem runs_addKind {name : String} {found : List Kind} (h : (addKind name kinds type).Runs config s found s') :
    s' = s ∧ ∃ word kind, type = .string word ∧ Kind.ofKeyword? word = some kind ∧
      found = if kind ∈ kinds then kinds else kinds ++ [kind] := by
  unfold addKind at h
  split at h
  · rename_i word
    split at h
    · rename_i kind hkind
      obtain ⟨rfl, rfl⟩ := runs_pure.1 h
      refine ⟨rfl, word, kind, rfl, hkind, ?_⟩
      simp only [List.contains_iff_mem]
    · exact absurd h not_runs_refuse
  · exact absurd h not_runs_refuse

theorem runs_addKinds {name : String} : ∀ {types : List Json} {kinds found : List Kind} {s s' : Session}, kinds.Nodup →
    (types.foldlM (addKind name) kinds).Runs config s found s' → s' = s ∧ found.Nodup ∧
      ∀ kind, kind ∈ found ↔ kind ∈ kinds ∨ ∃ word, .string word ∈ types ∧ Kind.ofKeyword? word = some kind
  | [], kinds, found, s, s', hnodup, h => by
    rw [List.foldlM_nil] at h
    obtain ⟨rfl, rfl⟩ := runs_pure.1 h
    exact ⟨rfl, hnodup, fun kind => (or_iff_left (by simp)).symm⟩
  | type :: rest, kinds, found, s, s', hnodup, h => by
    rw [List.foldlM_cons] at h
    obtain ⟨more, m, hadd, hrest⟩ := runs_bind.1 h
    obtain ⟨rfl, word, added, rfl, hadded, rfl⟩ := runs_addKind hadd
    have hmore : (if added ∈ kinds then kinds else kinds ++ [added]).Nodup ∧
        ∀ kind, kind ∈ (if added ∈ kinds then kinds else kinds ++ [added]) ↔ kind ∈ kinds ∨ kind = added := by
      split
      · rename_i hmem
        exact ⟨hnodup, fun kind => (or_iff_left_of_imp fun heq => heq ▸ hmem).symm⟩
      · rename_i hnot
        refine ⟨hnodup.append (List.nodup_singleton _) ?_, fun kind => by simp⟩
        exact List.disjoint_singleton.2 hnot
    obtain ⟨rfl, hfound, hiff⟩ := runs_addKinds hmore.1 hrest
    refine ⟨rfl, hfound, fun kind => ?_⟩
    rw [hiff, hmore.2, or_assoc]
    refine or_congr_right ⟨?_, ?_⟩
    · rintro (rfl | ⟨word', hmem, hkind⟩)
      · exact ⟨word, List.mem_cons_self, hadded⟩
      · exact ⟨word', List.mem_cons_of_mem _ hmem, hkind⟩
    · rintro ⟨word', hmem, hkind⟩
      rcases List.mem_cons.1 hmem with heq | hmem
      · obtain rfl := Json.string.inj heq
        exact Or.inl (Option.some.inj (hkind.symm.trans hadded))
      · exact Or.inr ⟨word', hmem, hkind⟩

/-- The kinds of a union are those that the list names, each once. -/
theorem runs_unionKinds {name : String} {types : List Json} (h : (unionKinds name types).Runs config s kinds s') :
    s' = s ∧ kinds.Nodup ∧ ∀ kind, kind ∈ kinds ↔ ∃ word, .string word ∈ types ∧ Kind.ofKeyword? word = some kind := by
  have hunfold : unionKinds name types = (do
      let kinds ← types.foldlM (addKind name) []
      if kinds.isEmpty then Build.malformed name "type must not be an empty list" else return kinds) := rfl
  rw [hunfold] at h
  obtain ⟨found, m, hfold, hrest⟩ := runs_bind.1 h
  obtain ⟨rfl, hnodup, hiff⟩ := runs_addKinds List.nodup_nil hfold
  split at hrest
  · exact absurd hrest not_runs_refuse
  · obtain ⟨rfl, rfl⟩ := runs_pure.1 hrest
    exact ⟨rfl, hnodup, fun kind => (hiff kind).trans (or_iff_right List.not_mem_nil)⟩

/-! ## Gathering the members -/

/-- A member has been built on the way, from a session in order, and what it left is as it was then. -/
structure Contributes (scene : Scene) (build : Builder) (site : Site) (node : Json) (kind : Kind) (family : List Check)
    (start s : Session) : Prop where
  isFamily : Check.IsFamily kind family
  run : ∃ property a b, start.graph.EnduresIn a.graph ∧ start.Calm a ∧ scene.Stands a ∧
    (member build site node kind).Runs scene.config a property b ∧ b.graph.EnduresIn s.graph ∧
    Poses property (.required :: .type [kind] false :: family)

/-- These are the checks of the members of these kinds: of each shape, those of the members that have it. -/
structure Gathers (scene : Scene) (build : Builder) (site : Site) (node : Json) (kinds : List Kind)
    (checks : List Check) (start s : Session) : Prop where
  endures : start.graph.EnduresIn s.graph
  calm : start.Calm s
  stands : scene.Stands s
  known : ∀ c ∈ checks, ∃ kind ∈ kinds, c.shape? = some kind.shape
  contributes : ∀ kind ∈ kinds,
    Contributes scene build site node kind (checks.filter (·.shape? = some kind.shape)) start s

variable {scene : Scene} {node : Json} {start : Session}

theorem gathers_nil (h : scene.Stands s) : Gathers scene build site node [] [] s s :=
  ⟨.refl _, .refl _, h, fun _ hc => absurd hc List.not_mem_nil, fun _ hkind => absurd hkind List.not_mem_nil⟩

theorem Gathers.shaped (h : Gathers scene build site node kinds checks start s) : Shaped checks := fun c hc =>
  have ⟨_, _, hshape⟩ := h.known c hc
  ⟨_, hshape⟩

theorem Contributes.later (h : Contributes scene build site node kind family start s)
    (hendures : s.graph.EnduresIn s'.graph) :
    Contributes scene build site node kind family start s' := by
  obtain ⟨property, a, b, hstart, hcalm, hstands, hrun, hb, hposes⟩ := h.run
  exact ⟨h.isFamily, property, a, b, hstart, hcalm, hstands, hrun, hb.trans hendures, hposes⟩

/-- From the start on members change no definitions. -/
def KeepsCalm (config : Config) (build : Builder) (site : Site) (node : Json) (start : Session) : Prop :=
  ∀ {kind property s s'}, start.graph.EnduresIn s.graph → start.Calm s →
    (member build site node kind).Runs config s property s' → s.Calm s'

/-- **One more member** brings a family of its shape, or that of numbers, which is there already. -/
theorem Gathers.step (h : Gathers scene (Building.property bound) site (typedAs type members) kinds checks start s)
    (hcalm : KeepsCalm scene.config (Building.property bound) site (typedAs type members) start) (hbare : Bare members)
    (hrequired : site.required = true) (hdocument : site.scope.document = scene.document)
    (hspelled : references (typedAs type members) ⊆ scene.spelled) (hposes : Poses draft checks) (hnot : kind ∉ kinds)
    (hrun : (member (Building.property bound) site (typedAs type members) kind).Runs scene.config s property s') :
    ∃ more, Gathers scene (Building.property bound) site (typedAs type members) (kinds ++ [kind]) more start s' ∧
      Poses (addMember draft property) more := by
  obtain ⟨family, hfamily, hmember⟩ := poses_member hbare hrequired hrun
  obtain ⟨dressed, hdressed, heq⟩ := hposes.dressed property
  have hendures : s.graph.EnduresIn s'.graph :=
    enduresIn_of_keeps (fun _ => Course.keeps_member (confined_property bound) kind) hrun
  have hnew : Contributes scene (Building.property bound) site (typedAs type members) kind family start s' :=
    ⟨hfamily, property, s, s', h.endures, h.calm, h.stands, hrun, .refl _, hmember⟩
  have hyields := Scene.yields_member (Scene.accepts_property bound scene) hdocument hspelled kind h.stands
  have hstands : scene.Stands s' := h.stands.writes (hyields.1 property s' hrun).1
  have hlast : ∀ {more : List Check}, (∀ c ∈ more, ∃ k ∈ kinds ++ [kind], c.shape? = some k.shape) →
      (∀ k ∈ kinds, more.filter (·.shape? = some k.shape) = checks.filter (·.shape? = some k.shape)) →
      more.filter (·.shape? = some kind.shape) = family →
      Gathers scene (Building.property bound) site (typedAs type members) (kinds ++ [kind]) more start s' := by
    intro more hknown hold hown
    refine ⟨h.endures.trans hendures, h.calm.trans (hcalm h.endures h.calm hrun), hstands, hknown, fun k hk => ?_⟩
    rcases List.mem_append.1 hk with hk | hk
    · rw [hold k hk]
      exact (h.contributes k hk).later hendures
    · obtain rfl := List.mem_singleton.1 hk
      rw [hown]
      exact hnew
  rw [heq]
  by_cases hseen : ∃ other ∈ kinds, other.shape = kind.shape
  · obtain ⟨other, hother, hshape⟩ := hseen
    obtain ⟨hnumber, hnumber'⟩ := Kind.shape_eq_number hshape fun heq => hnot (heq ▸ hother)
    have hobject : ∀ {k : Kind}, k.shape = .number → k ≠ .object := by
      rintro k hk rfl
      cases hk
    obtain ⟨_, property', a, b, _, _, _, hrun', _, hposes'⟩ := h.contributes other hother
    rw [member_of_ne (hobject hnumber)] at hrun'
    rw [member_of_ne (hobject hnumber')] at hrun
    have hsame := family_of_number hrequired hrequired rfl hnumber hnumber' hrun' hrun hposes' hmember
    refine ⟨checks, hlast (fun c hc => ?_) (fun _ _ => rfl) (hshape ▸ hsame), ?_⟩
    · obtain ⟨k, hk, hc⟩ := h.known c hc
      exact ⟨k, List.mem_append_left _ hk, hc⟩
    · rw [mergeOld hdressed hmember fun c hc => (List.mem_filter.1 (hsame ▸ hc)).1]
      exact hdressed
  · have hapart : ∀ c ∈ checks, c.shape? ≠ some kind.shape := by
      intro c hc heq
      obtain ⟨k, hk, hshape⟩ := h.known c hc
      exact hseen ⟨k, hk, Option.some.inj (hshape.symm.trans heq)⟩
    refine ⟨checks ++ family, hlast (fun c hc => ?_) (fun k hk => ?_) ?_,
      hdressed.mergeNew h.shaped hmember hfamily hapart⟩
    · rcases List.mem_append.1 hc with hc | hc
      · obtain ⟨k, hk, hc⟩ := h.known c hc
        exact ⟨k, List.mem_append_left _ hk, hc⟩
      · exact ⟨kind, List.mem_append_right _ List.mem_cons_self, hfamily.shape c hc⟩
    · have hnone : family.filter (·.shape? = some k.shape) = [] := by
        refine List.filter_eq_nil_iff.2 fun c hc => ?_
        rw [hfamily.shape c hc, decide_eq_true_eq, Option.some.injEq]
        exact fun heq => hseen ⟨k, hk, heq.symm⟩
      rw [List.filter_append, hnone, List.append_nil]
    · have hnone : checks.filter (·.shape? = some kind.shape) = [] :=
        List.filter_eq_nil_iff.2 fun c hc => by simpa using hapart c hc
      have hall : family.filter (·.shape? = some kind.shape) = family :=
        List.filter_eq_self.2 fun c hc => decide_eq_true (hfamily.shape c hc)
      rw [List.filter_append, hnone, hall, List.nil_append]

/-- Build a member and take it in. -/
def takeMember (build : Builder) (site : Site) (node : Json) (property : Property) (kind : Kind) : Build Property := do
  return addMember property (← member build site node kind)

/-- The members of a union, one after the other. -/
theorem gathers_foldlM (hcalm : KeepsCalm scene.config (Building.property bound) site (typedAs type members) start)
    (hbare : Bare members) (hrequired : site.required = true) (hdocument : site.scope.document = scene.document)
    (hspelled : references (typedAs type members) ⊆ scene.spelled) :
    ∀ {rest kinds : List Kind} {checks : List Check} {draft result : Property} {s s' : Session},
      Gathers scene (Building.property bound) site (typedAs type members) kinds checks start s → Poses draft checks →
      (kinds ++ rest).Nodup →
      (rest.foldlM (takeMember (Building.property bound) site (typedAs type members)) draft).Runs scene.config s result
        s' →
      ∃ all, Gathers scene (Building.property bound) site (typedAs type members) (kinds ++ rest) all start s' ∧
        Poses result all
  | [], kinds, checks, draft, result, s, s', h, hposes, _, hrun => by
    rw [List.foldlM_nil] at hrun
    obtain ⟨rfl, rfl⟩ := runs_pure.1 hrun
    exact ⟨checks, (List.append_nil kinds).symm ▸ h, hposes⟩
  | kind :: rest, kinds, checks, draft, result, s, s', h, hposes, hnodup, hrun => by
    rw [List.foldlM_cons] at hrun
    obtain ⟨taken, m, htaken, hrest⟩ := runs_bind.1 hrun
    obtain ⟨property, m', hmember, hreturn⟩ := runs_bind.1 htaken
    obtain ⟨rfl, rfl⟩ := runs_pure.1 hreturn
    have hnot : kind ∉ kinds := fun hmem => List.disjoint_of_nodup_append hnodup hmem List.mem_cons_self
    obtain ⟨more, hmore, htaken⟩ := h.step hcalm hbare hrequired hdocument hspelled hposes hnot hmember
    rw [← List.singleton_append, ← List.append_assoc] at hnodup ⊢
    exact gathers_foldlM hcalm hbare hrequired hdocument hspelled hmore htaken hnodup hrest

/-- **A union** gathers its members, and then it is completed. -/
theorem added_union (scene : Scene) {types : List Json}
    (hcalm : KeepsCalm scene.config (Building.property bound) site (typedAs type members) s) (hbare : Bare members)
    (hrequired : site.required = true) (hdocument : site.scope.document = scene.document)
    (hspelled : references (typedAs type members) ⊆ scene.spelled) (hstands : scene.Stands s)
    (h : (union (Building.property bound) site (typedAs type members) types).Runs scene.config s id s') :
    ∃ kinds checks m, (∀ kind, kind ∈ kinds ↔ ∃ word, .string word ∈ types ∧ Kind.ofKeyword? word = some kind) ∧
      Gathers scene (Building.property bound) site (typedAs type members) (kinds.filter (· ≠ .null)) checks s m ∧
      Added (.required :: .type kinds false :: (valueChecks (.object members) ++ checks)) m id s' := by
  unfold union at h
  obtain ⟨kinds, m₁, hkinds, hrest₁⟩ := runs_bind.1 h
  obtain ⟨rfl, hnodup, hiff⟩ := runs_unionKinds hkinds
  rw [hrequired] at hrest₁
  obtain ⟨fresh, m₂, hnew, hrest₂⟩ := runs_bind.1 hrest₁
  obtain ⟨rfl, -, hposes⟩ := poses_newProperty hnew
  obtain ⟨draft, m, hfold, hrest⟩ := runs_bind.1 hrest₂
  obtain ⟨checks, hgathers, hgathered⟩ :=
    gathers_foldlM hcalm hbare hrequired hdocument hspelled (gathers_nil hstands) hposes (hnodup.filter _) hfold
  refine ⟨kinds, checks, m, hiff, hgathers, ?_⟩
  simp only at hrest
  rw [runs_bind_of_iff fun _ _ => runs_allowsNull] at hrest
  simp only [Bool.not_true, Bool.and_false, Bool.false_and, if_true] at hrest
  have hcomplement : ∀ {draft : Property}, (do
      let property ← applyValueKeywords draft (typedAs type members) true
      Build.addProperty (← applyCompositions (Building.property bound) site (typedAs type members) property)).Runs
        scene.config m id s' →
      (complement (Building.property bound) site (typedAs type members) draft).Runs scene.config m id s' := by
    intro draft h
    unfold complement
    rw [hrequired]
    exact h
  refine added_complement hbare hrequired hgathers.shaped ?_ (hcomplement hrest)
  refine Poses.declare ?_ hgathers.shaped kinds
  exact ⟨hgathered.required, hgathered.relaxed, hgathered.toList⟩

end Building
end SchemaTypes

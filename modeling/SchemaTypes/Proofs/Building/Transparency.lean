import SchemaTypes.Proofs.Building.Places
import SchemaTypes.Proofs.Building.Resolutions
/-!
# References are transparent

A document has a reference in a place of its root, by itself or in other nodes, and another one has the node there that
the reference resolves to.  Both can be processed or neither can (`Session.reference_judges_as_written`), for what is
built for the reference asks for the same as what is built for the node (`Building.concur_refer`), and then so do the
properties around them (`Building.concur_surround`).  Then the roots make the same of every value, unless a type is
redirected on the way: between the graphs there is a likeness that the roots belong to (`Building.Matched.evaluate`).

The node must not have a reference itself.  A definition whose node has an object's keywords beside a reference is that
object, while the node by itself is what it refers to (`Session.not_forall_definition_judges_as_written`).
-/
namespace SchemaTypes

namespace Building

open Build Naming

variable {config : Config} {t : Tandem} {keys : List DefinitionKey} {start m n made s₁ s₂ s : Session}
  {a b copy member first : PropertyId} {root root' type : TypeId} {source : Source} {name reference : String}
  {referring node value : Json} {nesting : Nesting} {nestings : List Nesting} {place : Place} {site : Site}
  {bound bound' : Nat}

/-- No type of the graph is redirected, from this one on. -/
abbrev StraightFrom (bound : Nat) (graph : Graph) : Prop :=
  ∀ id : TypeId, bound ≤ id.index → (graph.entry id).redirect = none

/-! ## Properties that ask for the same -/

/-- A likeness of what two runs have built: it relates properties that are there, and no types from before. -/
structure Likens (t : Tandem) (G H : Graph) (R : PropertyId → PropertyId → Prop) (T : TypeId → TypeId → Prop) :
    Prop where
  likeness : IsLikeness G H R R T
  properties : ∀ i j, R i j → G.HasProperty i ∧ H.HasProperty j
  types : ∀ k l, T k l → t.types.1 ≤ k.index ∧ t.types.2 ≤ l.index

/-- The properties belong to a likeness, with one default, unless a type has been redirected. -/
structure Matched (t : Tandem) (m n : Session) (a b : PropertyId) : Prop where
  first : m.graph.HasProperty a
  second : n.graph.HasProperty b
  alike : StraightFrom t.types.1 m.graph → StraightFrom t.types.2 n.graph →
    (m.graph.property a).default = (n.graph.property b).default ∧ ∃ R T, Likens t m.graph n.graph R T ∧ R a b

/-- What one run has asks for what the other has got for the node. -/
theorem Answers.matched (h : Answers t keys start copy m member n made first) (hground : t.ground = .empty)
    (hmember : n.graph.HasProperty member) : Matched t m n copy member := by
  refine ⟨h.passed.hasProperty, hmember, fun hstraight hstraight' => ?_⟩
  have htypes : ∀ id, m.graph.entry id = made.graph.entry id := by
    intro id
    unfold Graph.entry
    rw [h.passed.retains.types]
  obtain ⟨hcoupled, hids⟩ := h.twinned.coupled ⟨fun id hid => htypes id ▸ hstraight id hid, hstraight'⟩
  have hmade := hcoupled.isLikeness hcoupled.keeps h.twinned.closed.properties h.twinned.closed.types
  have hkept := h.passed.retains.property
  have hlikeness : IsLikeness m.graph n.graph (t.Related made.graph) (t.Related made.graph)
      (t.RelatedTypes made.graph) :=
    hmade.congr (fun i _ hij => ⟨(hkept i hij.2).2, rfl⟩) fun _ _ _ =>
      ⟨Graph.type_of_types h.passed.retains.types _, rfl⟩
  -- The definition the copy restates is related to the member.
  have hrelated : t.Related made.graph first member := ⟨hids.links, h.twinned.hasProperty⟩
  have hrestates := h.passed.restates
  rw [← (hkept first h.twinned.hasProperty).2] at hrestates
  refine ⟨?_, _, _, ⟨hlikeness.addProperty (a := copy) (b := member) ?_ ?_, ?_, ?_⟩, Or.inr ⟨rfl, rfl⟩⟩
  · rw [hrestates.default, (hkept first h.twinned.hasProperty).2]
    exact (hcoupled.kin first member hids).default
  · have hpresence := (hlikeness.presence first member hrelated).2
    unfold Validators.hasRequired at hpresence ⊢
    rw [hrestates.checks, hpresence]
  · have hasks := hlikeness.property first member hrelated
    unfold Property.asks at hasks ⊢
    rw [hrestates.checks]
    exact hasks
  · rintro i j (hij | ⟨rfl, rfl⟩)
    · exact ⟨(hkept i hij.2).1, (hcoupled.hasProperty_iff hij.1).1 hij.2⟩
    · exact ⟨h.passed.hasProperty, hmember⟩
  · rintro k l ⟨⟨i, hk, hl⟩ | ⟨_, hthere⟩, _⟩
    · exact ⟨hk ▸ Nat.le_add_right _ _, hl ▸ Nat.le_add_right _ _⟩
    · rw [hground] at hthere
      exact absurd hthere (Nat.not_lt_zero _)

/-- Properties that nobody claims stay matched when they become optional. -/
theorem Matched.relax (h : Matched t m n a b) (ha : m.graph.Unclaimed a) (hb : n.graph.Unclaimed b) :
    Matched t (m.withGraph (m.graph.modifyProperty a Property.relax))
      (n.withGraph (n.graph.modifyProperty b Property.relax)) a b := by
  refine ⟨h.first.grows (Session.grows_modifyProperty _ _ _), h.second.grows (Session.grows_modifyProperty _ _ _),
    fun hstraight hstraight' => ?_⟩
  obtain ⟨hdefault, R, T, hlikens, hab⟩ := h.alike hstraight hstraight'
  have hrelaxed := Graph.property_modifyProperty m.graph Property.relax h.first
  have hrelaxed' := Graph.property_modifyProperty n.graph Property.relax h.second
  refine ⟨?_, _, T, ⟨hlikens.likeness.relax hab ha hb h.first h.second, ?_, hlikens.types⟩, Or.inr ⟨rfl, rfl⟩⟩
  · change ((m.graph.modifyProperty a Property.relax).property a).default =
      ((n.graph.modifyProperty b Property.relax).property b).default
    rw [hrelaxed, hrelaxed']
    exact hdefault
  · rintro i j (⟨hij, _⟩ | ⟨rfl, rfl⟩)
    · obtain ⟨hi, hj⟩ := hlikens.properties i j hij
      exact ⟨hi.grows (Session.grows_modifyProperty _ _ _), hj.grows (Session.grows_modifyProperty _ _ _)⟩
    · exact ⟨h.first.grows (Session.grows_modifyProperty _ _ _), h.second.grows (Session.grows_modifyProperty _ _ _)⟩

/-- The guards and checks of two nodes around are alike if what they lead to is. -/
theorem asks_frames {p q : Property} {R : PropertyId → PropertyId → Prop} {T : TypeId → TypeId → Prop}
    (hp : nesting.Frames a p) (hq : nesting.Frames b q) (hab : R a b) : Validators.Like R R T p.asks q.asks := by
  unfold Property.asks
  rw [hp.poses.toList, hq.poses.toList]
  cases nesting with
  | branch combinator =>
    exact .cons (.same rfl rfl) (.cons (.composition (.cons ⟨hab, rfl⟩ .nil)) .nil)
  | item => exact .cons (.same rfl rfl) (.cons (.items hab) .nil)
  | position => exact .cons (.same rfl rfl) (.cons (.tuple (.cons hab .nil)) .nil)
  | contained => exact .cons (.same rfl rfl) (.cons (.contains hab) .nil)

/-- Properties around matched ones are matched. -/
theorem Matched.add {p q : Property} (h : Matched t m n a b) (hp : nesting.Frames a p) (hq : nesting.Frames b q) :
    Matched t (m.withGraph (m.graph.addProperty p).2) (n.withGraph (n.graph.addProperty q).2)
      (m.graph.addProperty p).1 (n.graph.addProperty q).1 := by
  have hadded := Graph.property_addProperty m.graph p
  have hadded' := Graph.property_addProperty n.graph q
  refine ⟨Session.hasProperty_addProperty _ _, Session.hasProperty_addProperty _ _, fun hstraight hstraight' => ?_⟩
  obtain ⟨_, R, T, hlikens, hab⟩ := h.alike hstraight hstraight'
  have htypes : ∀ (graph : Graph) (property : Property), (graph.addProperty property).2.types = graph.types :=
    fun _ _ => rfl
  have hlikeness : IsLikeness (m.graph.addProperty p).2 (n.graph.addProperty q).2 R R T :=
    hlikens.likeness.congr (fun i j hij => ⟨Graph.property_addProperty_of_lt _ _ (hlikens.properties i j hij).1,
      Graph.property_addProperty_of_lt _ _ (hlikens.properties i j hij).2⟩) fun _ _ _ =>
        ⟨Graph.type_of_types (htypes m.graph p) _, Graph.type_of_types (htypes n.graph q) _⟩
  refine ⟨?_, _, T, ⟨hlikeness.addProperty ?_ ?_, ?_, hlikens.types⟩, Or.inr ⟨rfl, rfl⟩⟩
  · change ((m.graph.addProperty p).2.property _).default = ((n.graph.addProperty q).2.property _).default
    rw [hadded, hadded', hp.default, hq.default]
  · rw [hadded, hadded']
    unfold Validators.hasRequired
    rw [hp.poses.toList, hq.poses.toList]
    rfl
  · rw [hadded, hadded']
    exact asks_frames hp hq hab
  · rintro i j (hij | ⟨rfl, rfl⟩)
    · obtain ⟨hi, hj⟩ := hlikens.properties i j hij
      exact ⟨hi.grows (Session.grows_addProperty _ _), hj.grows (Session.grows_addProperty _ _)⟩
    · exact ⟨Session.hasProperty_addProperty _ _, Session.hasProperty_addProperty _ _⟩

/-! ## Reference and node, place by place -/

/-- What the one run has for the reference is matched with what the other one has for the node, and the one has begun
nothing but the definitions on the way. -/
structure Met (t : Tandem) (keys : List DefinitionKey) (start : Session) (a : PropertyId) (m : Session) (b : PropertyId)
    (n : Session) : Prop where
  matched : Matched t m n a b
  untouched : Untouched keys start m

section
variable {scope : Scope} {label : String} {x y : Json}
  (horderly : s₁.Orderly t.config) (horderly' : s₂.Orderly t.config)
  (h : Concur t.config (property bound { scope, name := label, required := true } x) s₁
    (property bound' { scope, name := label, required := true } y) s₂ (Met t keys s₁))

include horderly horderly' h

/-- In a nested context both are made optional. -/
theorem concur_nested : Concur t.config (nested (property bound) scope label x) s₁
    (nested (property bound') scope label y) s₂ (Met t keys s₁) := by
  refine h.bind fun a m b n hx hy hmet => ?_
  have hrelax : ∀ (id : PropertyId) (s : Session), (do
      Build.modifyProperty id Property.relax
      return id : Build PropertyId).Runs t.config s id (s.withGraph (s.graph.modifyProperty id Property.relax)) :=
    fun _ _ => runs_bind.2 ⟨⟨⟩, _, runs_modifyGraph.2 rfl, runs_pure.2 ⟨rfl, rfl⟩⟩
  exact concur_of_runs (hrelax a m) (hrelax b n)
    ⟨hmet.matched.relax (unclaimed_of_property horderly hx) (unclaimed_of_property horderly' hy), hmet.untouched⟩

theorem concur_hold (hscope : site.scope = scope) (hlabel : nesting.label site.name = label) :
    Concur t.config (nesting.hold (property bound) site x) s₁ (nesting.hold (property bound') site y) s₂
      (Met t keys s₁) := by
  subst hscope hlabel
  cases nesting with
  | branch combinator => exact h
  | _ => exact concur_nested horderly horderly' h

/-- In a place of a root. -/
theorem concur_place (hlabel : place.label = label) {x' y' : Json} (hx : place.dress x' = x) (hy : place.dress y' = y) :
    Concur t.config (place.hold (property bound) scope x') s₁ (place.hold (property bound') scope y') s₂
      (Met t keys s₁) := by
  subst hlabel hx hy
  have hnested := concur_nested horderly horderly' h
  cases place with
  | member name => exact h
  | additional => exact hnested
  | dependant trigger => exact hnested
  | pattern source =>
    change Concur t.config (Keyword.pattern scope.className source >>= fun _ => nested (property bound) scope _ _) s₁
      (Keyword.pattern scope.className source >>= fun _ => nested (property bound') scope _ _) s₂ _
    unfold Keyword.pattern
    split
    · rw [pure_bind, pure_bind]
      exact hnested
    · refine concur_of_not (fun a m hrun => ?_) fun b n hrun => ?_
      · obtain ⟨_, _, hrefuse, _⟩ := runs_bind.1 hrun
        exact not_runs_refuse hrefuse
      · obtain ⟨_, _, hrefuse, _⟩ := runs_bind.1 hrun
        exact not_runs_refuse hrefuse

end

/-- Around what has been built for the reference and for the node, properties are built that are matched as well. -/
theorem concur_plug {x y : Json} (horderly : s₁.Orderly t.config) (horderly' : s₂.Orderly t.config)
    (hname : HasIdentifier site.name) (hrequired : site.required = true) (hx : nesting.Takes x) (hy : nesting.Takes y)
    (h : Concur t.config
      (property bound { scope := site.scope, name := nesting.label site.name, required := true } x) s₁
      (property bound' { scope := site.scope, name := nesting.label site.name, required := true } y) s₂
      (Met t keys s₁)) :
    Concur t.config (property (bound + 1) site (nesting.plug x)) s₁ (property (bound' + 1) site (nesting.plug y)) s₂
      (Met t keys s₁) := by
  obtain ⟨f, hf, hruns⟩ := runs_plug t.config bound hname hrequired hx
  obtain ⟨g, hg, hruns'⟩ := runs_plug t.config bound' hname hrequired hy
  rcases (concur_hold horderly horderly' h rfl rfl).cases with ⟨a, m, b, n, hheld, hheld', hmet⟩ | ⟨hnot, hnot'⟩
  · exact concur_of_runs ((hruns _ _ _).2 ⟨a, m, hheld, rfl, rfl⟩) ((hruns' _ _ _).2 ⟨b, n, hheld', rfl, rfl⟩)
      ⟨hmet.matched.add (hf a m.graph) (hg b n.graph), hmet.untouched⟩
  · refine concur_of_not (fun outer s' hrun => ?_) fun outer s' hrun => ?_
    · obtain ⟨a, m, hheld, _⟩ := (hruns _ _ _).1 hrun
      exact hnot a m hheld
    · obtain ⟨b, n, hheld, _⟩ := (hruns' _ _ _).1 hrun
      exact hnot' b n hheld

theorem Begins.relocate {g h : Graph} (hbegins : Begins t g h site) {name : String} (hname : HasIdentifier name) :
    Begins t g h { scope := site.scope, name, required := true } :=
  ⟨hbegins.properties, hbegins.types, hbegins.ground, rfl, hname, hbegins.enclosing, hbegins.top⟩

/-- **Wherever a reference stands, it gets what is matched with what the node gets there**, or neither can be built. -/
theorem concur_surround {documents : Reference.Documents} {document : String}
    (hresolves : ResolvesTo documents document reference keys node)
    (hreferring : referring.get? "$ref" = some (.string reference)) :
    ∀ (nestings : List Nesting) (bound bound' : Nat) (site : Site), Fits nestings referring → Fits nestings node →
      s₁.documents = documents → site.scope.document = document → s₁.Orderly t.config → s₂.Orderly t.config →
      Begins t s₁.graph s₂.graph site → (∀ key ∈ keys, s₁.definition? key = none) →
      nestings.length + (node.levels + keys.length) ≤ bound → nestings.length + node.levels ≤ bound' →
      Concur t.config (property bound site (surround nestings referring)) s₁
        (property bound' site (surround nestings node)) s₂ (Met t keys s₁)
  | [], bound, bound', site, _, _, hdocuments, hdocument, horderly, _, hbegins, hfresh, hroom, hroom' => by
    have hlevels := one_le_levels node
    simp only [List.length_nil, Nat.zero_add] at hroom hroom'
    obtain ⟨bound, rfl⟩ : ∃ less, bound = less + 1 := Nat.exists_eq_succ_of_ne_zero (by omega)
    obtain ⟨bound', rfl⟩ : ∃ less, bound' = less + 1 := Nat.exists_eq_succ_of_ne_zero (by omega)
    change Concur t.config (property (bound + 1) site referring) s₁ (property (bound' + 1) site node) s₂ _
    rw [property_eq_referred hreferring]
    have hrefer := concur_refer hresolves bound { site with merged := false } s₁ hdocuments horderly hbegins hdocument
      hbegins.required hbegins.name hfresh hroom hroom'
    refine Concur.imp (concur_referred hrefer) fun a m b n _ hbuilt ⟨made, first, hanswers⟩ =>
      ⟨hanswers.matched hbegins.ground ?_, hanswers.untouched⟩
    exact ((makes_property _ _ trivial).1 b n hbuilt).1
  | nesting :: rest, bound, bound', site, hfits, hfits', hdocuments, hdocument, horderly, horderly', hbegins, hfresh,
      hroom, hroom' => by
    rw [List.length_cons] at hroom hroom'
    obtain ⟨bound, rfl⟩ : ∃ less, bound = less + 1 := Nat.exists_eq_succ_of_ne_zero (by omega)
    obtain ⟨bound', rfl⟩ : ∃ less, bound' = less + 1 := Nat.exists_eq_succ_of_ne_zero (by omega)
    refine concur_plug horderly horderly' hbegins.name hbegins.required hfits.1 hfits'.1 ?_
    exact concur_surround hresolves hreferring rest bound bound' _ hfits.2 hfits'.2 hdocuments hdocument horderly
      horderly' (hbegins.relocate (nesting.hasIdentifier_label hbegins.name)) hfresh (by omega) (by omega)

/-! ## Roots that get what is matched -/

/-- What roots that have nothing yet become when they get properties that are alike. -/
theorem typeLike_install {G H : Graph} {R : PropertyId → PropertyId → Prop} {T : TypeId → TypeId → Prop} {x y : Json}
    {className : String} {k l : ObjectType} (hk : k.properties = [] ∧ k.validators = {})
    (hl : l.properties = [] ∧ l.validators = {}) (hab : R a b)
    (hmember : ∀ name, place = .member name → MemberLike G H R a b) :
    TypeLike G H R R T (place.install className x a k) (place.install className y b l) := by
  have hnone : List.Forall₂ (MemberLike G H R) k.properties l.properties := by
    rw [hk.1, hl.1]
    exact .nil
  have hone : ∀ c d, Check.Like R R T c d → Validators.Like R R T (k.validators.addCheck c).toList
      (l.validators.addCheck d).toList := by
    intro c d hcd
    rw [hk.2, hl.2]
    exact .cons hcd .nil
  cases place with
  | member name =>
    refine ⟨?_, ?_⟩
    · change List.Forall₂ _ (k.properties ++ [a]) (l.properties ++ [b])
      rw [hk.1, hl.1]
      exact .cons (hmember name rfl) .nil
    · change Validators.Like R R T k.validators.toList l.validators.toList
      rw [hk.2, hl.2]
      exact .nil
  | additional => exact ⟨hnone, hone _ _ (.additionalProperties hab)⟩
  | dependant trigger => exact ⟨hnone, hone _ _ (.schemaDependency hab)⟩
  | pattern source =>
    simp only [Place.install]
    cases Pattern.ofSource source with
    | ok regex => exact ⟨hnone, hone _ _ (.patternProperty hab)⟩
    | error fault =>
      refine ⟨hnone, ?_⟩
      rw [hk.2, hl.2]
      exact .nil

theorem redirect_install (place : Place) (className : String) (node : Json) (id : PropertyId) (type : ObjectType) :
    (place.install className node id type).redirect = type.redirect := by
  cases place with
  | pattern source =>
    simp only [Place.install]
    cases Pattern.ofSource source <;> rfl
  | _ => rfl

/-- **Roots that get matched properties judge alike**, and make the same models. -/
theorem Matched.evaluate {x y : Json} {className : String} (h : Matched t m n a b) (hm : Making source root m)
    (hn : Making source root' n) (hc : Concluded root (place.install className x a) m s₁)
    (hc' : Concluded root' (place.install className y b) n s₂)
    (hname : ∀ name, place = .member name → (m.graph.property a).name = (n.graph.property b).name)
    (hroot : root.index < t.types.1) (hroot' : root'.index < t.types.2) (hstraight : StraightFrom t.types.1 s₁.graph)
    (hstraight' : StraightFrom t.types.2 s₂.graph) (mode : Mode) (value : Json) :
    Option.Rel Evaluation.Result.Like (s₁.graph.evaluate mode root value) (s₂.graph.evaluate mode root' value) := by
  have hentry : ∀ id : TypeId, t.types.1 ≤ id.index → s₁.graph.entry id = m.graph.entry id :=
    fun id hid => hc.entry id fun heq => Nat.not_le_of_lt hroot (heq ▸ hid)
  have hentry' : ∀ id : TypeId, t.types.2 ≤ id.index → s₂.graph.entry id = n.graph.entry id :=
    fun id hid => hc'.entry id fun heq => Nat.not_le_of_lt hroot' (heq ▸ hid)
  have hunmoved : StraightFrom t.types.1 m.graph := fun id hid => hentry id hid ▸ hstraight id hid
  have hunmoved' : StraightFrom t.types.2 n.graph := fun id hid => hentry' id hid ▸ hstraight' id hid
  obtain ⟨hdefault, R, T, hlikens, hab⟩ := h.alike hunmoved hunmoved'
  have hlikeness : IsLikeness s₁.graph s₂.graph R R T := by
    refine hlikens.likeness.congr (fun i j hij => ?_) fun k l hkl => ⟨?_, ?_⟩
    · obtain ⟨hi, hj⟩ := hlikens.properties i j hij
      exact ⟨hc.property i hi, hc'.property j hj⟩
    · have hk := (hlikens.types k l hkl).1
      rw [Graph.type_eq_entry (hstraight k hk), Graph.type_eq_entry (hunmoved k hk), hentry k hk]
    · have hl := (hlikens.types k l hkl).2
      rw [Graph.type_eq_entry (hstraight' l hl), Graph.type_eq_entry (hunmoved' l hl), hentry' l hl]
  have hstays : (s₁.graph.entry root).redirect = none :=
    hc.redirect.trans ((redirect_install _ _ _ _ _).trans hm.redirect)
  have hstays' : (s₂.graph.entry root').redirect = none :=
    hc'.redirect.trans ((redirect_install _ _ _ _ _).trans hn.redirect)
  have htype : TypeLike s₁.graph s₂.graph R R T (s₁.graph.type root) (s₂.graph.type root') := by
    have hinstalled : TypeLike s₁.graph s₂.graph R R T (place.install className x a (m.graph.entry root))
        (place.install className y b (n.graph.entry root')) := by
      refine typeLike_install ⟨hm.properties, hm.validators⟩ ⟨hn.properties, hn.validators⟩ hab fun name hplace =>
        ⟨?_, ?_, hab⟩
      · rw [hc.property a h.first, hc'.property b h.second, hname name hplace]
      · rw [hc.property a h.first, hc'.property b h.second, hdefault]
    rw [Graph.type_eq_entry hstays, Graph.type_eq_entry hstays']
    refine ⟨?_, ?_⟩
    · rw [hc.properties, hc'.properties]
      exact hinstalled.properties
    · rw [hc.validators, hc'.validators]
      exact hinstalled.validators
  exact (hlikeness.addType htype).evaluate mode (Or.inr ⟨rfl, rfl⟩) value

/-! ## Documents -/

/-- The two runs, from when the root has been begun in both. -/
def fromRoots (config : Config) (hcarries : config.naming.Carries) (s : Session) : Tandem :=
  .afresh config hcarries (s.graph.properties.size, s.graph.properties.size)
    (s.graph.types.size + 1, s.graph.types.size + 1)

theorem begins_fromRoots (hcarries : config.naming.Carries) (htop : config.naming.CarriesInto "")
    (hclass : HasIdentifier (rootClass s source)) (hname : HasIdentifier name) (document document' : Json) :
    Begins (fromRoots config hcarries s) (begun (s.register source document) source).graph
      (begun (s.register source document') source).graph (memberSite s source name) := by
  have hsize : ∀ document, (begun (s.register source document) source).graph.types.size = s.graph.types.size + 1 :=
    fun _ => Array.size_push _
  refine ⟨rfl, ?_, rfl, rfl, hname, hcarries.into hclass, htop⟩
  rw [hsize, hsize]
  rfl

theorem orderly_begun (h : s.Orderly config) (document : Json) :
    (begun (s.register source document) source).Orderly config :=
  ⟨(stands_begun h source document []).closed, (stands_begun h source document []).inStep⟩

/-- In the stored documents the new one is found under its key. -/
theorem value_of_registered {document : Json} : ∀ stored ∈ (s.register source document).documents,
    stored.key = source.key → stored.value = document := by
  intro stored hmem hkey
  rcases List.mem_append.1 hmem with hmem | hmem
  · exact absurd hkey (of_decide_eq_true (List.mem_filter.1 hmem).2)
  · exact congrArg Reference.Document.value (List.mem_singleton.1 hmem)

/-- The document that has the node in a place of its root, in the nodes that stand around it. -/
def Place.around (place : Place) (definitions : Members) (nestings : List Nesting) (node : Json) : Json :=
  place.rootAmong definitions (surround nestings node)

/-- Build what the root of such a document holds, in the session that the document is stored in. -/
def Place.held (place : Place) (s : Session) (source : Source) (definitions : Members) (nestings : List Nesting)
    (node : Json) : Build PropertyId :=
  place.hold (property (recursionBound (s.register source (place.around definitions nestings node)).documents))
    (rootScope source (rootClass s source)) (surround nestings node)

theorem mem_references_around (place : Place) (definitions : Members) (nestings : List Nesting) (reference : String) :
    reference ∈ references (place.around definitions nestings (referral reference)) := by
  have hget : (referral reference).get? "$ref" = some (.string reference) := rfl
  refine place.references_subset definitions _ ?_
  rw [references_surround]
  exact mem_references_of_get hget

theorem Place.room_around (place : Place) (definitions : Members) (nestings : List Nesting) (node : Json) :
    nestings.length + node.levels < (place.around definitions nestings node).levels :=
  Nat.lt_of_le_of_lt (length_lt_levels_surround nestings node) (place.levels_lt _ _)

section
variable {definitions : Members} (hholds : place.Holds nestings node)
  (hresolves : ResolvesTo (s.register source (place.around definitions nestings (referral reference))).documents
    source.key reference keys node)

include hresolves

/-- The root is none of the definitions on the way. -/
theorem root_not_mem_keys : (⟨source.key, ""⟩ : DefinitionKey) ∉ keys :=
  hresolves.ne_of_lookup value_of_registered (place.isObject_rootAmong _ _).1 fun hnone =>
    absurd (hnone ▸ mem_references_around place definitions nestings reference) List.not_mem_nil

/-- The recursion bound allows for the nodes around the reference, for the definitions on the way and for the node. -/
theorem room_for_resolution : nestings.length + (node.levels + keys.length) ≤
    recursionBound (s.register source (place.around definitions nestings (referral reference))).documents := by
  have hreference := mem_references_around place definitions nestings reference
  have hlevels := place.room_around definitions nestings (referral reference)
  generalize place.around definitions nestings (referral reference) = document at hresolves hreference hlevels ⊢
  have hstored : (⟨source.key, source.namespaceName, document⟩ : Reference.Document) ∈
      (s.register source document).documents := List.mem_append_right _ (List.mem_singleton.2 rfl)
  have hchained : Chained (s.register source document).documents source.key keys :=
    hresolves.chained (covered_of_written hstored (List.Subset.refl _) List.mem_cons_self reference hreference)
  have hbound := room_le_recursionBound ⟨_, hstored, rfl⟩
  have hdepth : document.depth ≤ _ := depth_le_depthOf hstored
  have hdocument := levels_le_depth document
  have hnode := hresolves.levels
  have hkeys := hchained.length_le
  generalize (targets (s.register source document).documents source.key).length = count at hbound hkeys
  generalize depthOf (s.register source document).documents = depth at hbound hdepth hnode
  have hmany : count ≤ count * (depth + 5) := Nat.le_mul_of_pos_right _ (Nat.succ_pos _)
  rw [Nat.add_mul] at hbound
  omega

include hholds

/-- **The reference is built in its place exactly if the node is**, and asks for the same. -/
theorem concur_referral (hcarries : config.naming.Carries) (htop : config.naming.CarriesInto "")
    (horderly : s.Orderly config) (hclass : HasIdentifier (rootClass s source))
    (hname : ∀ name, place = .member name → HasIdentifier name) (hfresh : ∀ key ∈ keys, s.definition? key = none) :
    Concur config (place.held s source definitions nestings (referral reference))
      (begun (s.register source (place.around definitions nestings (referral reference))) source)
      (place.held s source definitions nestings node)
      (begun (s.register source (place.around definitions nestings node)) source)
      (Met (fromRoots config hcarries s) keys
        (begun (s.register source (place.around definitions nestings (referral reference))) source)) := by
  have hroom := room_for_resolution hresolves
  have hroom' := Nat.le_of_lt (Nat.lt_of_lt_of_le (place.room_around definitions nestings node)
    (levels_le_recursionBound s source _))
  have hroot := root_not_mem_keys hresolves
  unfold Place.held
  generalize place.around definitions nestings (referral reference) = document at hresolves hroom ⊢
  generalize place.around definitions nestings node = document' at hroom' ⊢
  have hstill : ∀ key ∈ keys, (begun (s.register source document) source).definition? key = none := by
    intro key hkey
    have hne : key ≠ ⟨source.key, ""⟩ := fun heq => hroot (heq ▸ hkey)
    exact (Session.definition?_setDefinition _ _ _ _).trans ((if_neg hne).trans (hfresh key hkey))
  obtain ⟨referring, hreferring, hfits, _, hdress⟩ := hholds.exists_referring reference
  refine concur_place (t := fromRoots config hcarries s) (orderly_begun horderly document)
    (orderly_begun horderly document') ?_ rfl hdress hholds.dress
  exact concur_surround (t := fromRoots config hcarries s) hresolves hreferring nestings _ _
    (memberSite s source place.label) hfits hholds.fits rfl rfl (orderly_begun horderly document)
    (orderly_begun horderly document') (begins_fromRoots hcarries htop hclass (place.hasIdentifier_label hname) _ _)
    hstill hroom hroom'

/-- Both documents are built as far as their places, which ask for the same, or neither can be processed. -/
theorem referred_or_neither (hcarries : config.naming.Carries) (htop : config.naming.CarriesInto "")
    (horderly : s.Orderly config) (hname : ∀ name, place = .member name → HasIdentifier name)
    (hfresh : ∀ key ∈ keys, s.definition? key = none) :
    (HasIdentifier (rootClass s source) ∧ ∃ copy m member n,
      (place.held s source definitions nestings (referral reference)).Runs config
        (begun (s.register source (place.around definitions nestings (referral reference))) source) copy m ∧
      (place.held s source definitions nestings node).Runs config
        (begun (s.register source (place.around definitions nestings node)) source) member n ∧
      Met (fromRoots config hcarries s) keys
        (begun (s.register source (place.around definitions nestings (referral reference))) source) copy m member n) ∨
    (∀ root s', ¬ (document source (place.around definitions nestings (referral reference))).Runs config s root s') ∧
      ∀ root s', ¬ (document source (place.around definitions nestings node)).Runs config s root s' := by
  obtain ⟨_, _, _, htakes, _⟩ := hholds.exists_referring reference
  by_cases hclass : HasIdentifier (rootClass s source)
  · rcases (concur_referral hholds hresolves hcarries htop horderly hclass hname hfresh).cases with
      ⟨copy, m, member, n, hrun, hrun', hmet⟩ | ⟨hnot, hnot'⟩
    · exact Or.inl ⟨hclass, copy, m, member, n, hrun, hrun', hmet⟩
    · refine Or.inr ⟨fun root s' hdone => ?_, fun root s' hdone => ?_⟩
      · obtain ⟨copy, m, hmade, _⟩ := (Place.runs_document htakes).1 hdone
        exact hnot _ _ hmade
      · obtain ⟨member, n, hmade, _⟩ := (Place.runs_document hholds.takes).1 hdone
        exact hnot' _ _ hmade
  · refine Or.inr ⟨fun root s' hdone => ?_, fun root s' hdone => ?_⟩
    · obtain ⟨copy, m, _, hconclude⟩ := (Place.runs_document htakes).1 hdone
      exact hclass (hasIdentifier_of_conclude hconclude)
    · obtain ⟨member, n, _, hconclude⟩ := (Place.runs_document hholds.takes).1 hdone
      exact hclass (hasIdentifier_of_conclude hconclude)

end

/-- Where a place has been built and nothing waits for its root, that is still being made. -/
theorem Making.of_place {stored : Session} {x : Json}
    (hrun : (place.hold (property bound) (rootScope source (rootClass stored source)) x).Runs config
      (begun stored source) copy m)
    (hpending : m.definition? ⟨source.key, ""⟩ = some (.inProgress (some (rootId stored)) [])) :
    Making source (rootId stored) m := by
  obtain ⟨built, hbuilt, rfl | rfl⟩ := Place.runs_hold hrun
  · exact .of_member hbuilt hpending
  · obtain ⟨_, htype, hisRoot, hproperties, hvalidators, hredirect⟩ := Making.of_member hbuilt hpending
    exact ⟨hpending, htype, hisRoot, hproperties, hvalidators, hredirect⟩

theorem making_referral {definitions : Members}
    (hresolves : ResolvesTo (s.register source (place.around definitions nestings (referral reference))).documents
      source.key reference keys node)
    (hrun : (place.held s source definitions nestings (referral reference)).Runs config
      (begun (s.register source (place.around definitions nestings (referral reference))) source) copy m)
    (hmet : Met t keys (begun (s.register source (place.around definitions nestings (referral reference))) source) copy
      m member n) : Making source (rootId s) m := by
  have hpending := (hmet.untouched _ (root_not_mem_keys hresolves)).trans
    (pending_of_calm (.refl (begun (s.register source _) source)))
  have hmaking : Making source (rootId (s.register source _)) m := .of_place hrun hpending
  exact hmaking

theorem making_written {definitions : Members} (hholds : place.Holds nestings node) (hnone : references node = [])
    (hcarries : config.naming.Carries) (hclass : HasIdentifier (rootClass s source))
    (hrun : (place.held s source definitions nestings node).Runs config
      (begun (s.register source (place.around definitions nestings node)) source) member n) :
    Making source (rootId s) n := by
  have hlevels := Nat.le_of_lt (Nat.lt_of_lt_of_le (place.levels_lt definitions (surround nestings node))
    (levels_le_recursionBound s source (place.around definitions nestings node)))
  have hpending : n.definition? ⟨source.key, ""⟩ = some (.inProgress (some (rootId s)) []) := by
    obtain ⟨built, hbuilt, hsame⟩ := Place.runs_hold hrun
    rw [hholds.dress] at hbuilt
    have hcalm := calm_property hbuilt hcarries hlevels
      (Ground.covers_of_nil ((references_surround nestings node).trans hnone)) (Ground.empty_servedIn _ _)
      (Ground.empty_enduresIn _) (hcarries.into hclass)
    have hbuiltPending := pending_of_calm hcalm
    rcases hsame with rfl | rfl <;> exact hbuiltPending
  have hmaking : Making source (rootId (s.register source _)) n := .of_place hrun hpending
  exact hmaking

end Building

namespace Session

open Building Build Naming

variable {config : Config} {source : Source} {reference : String} {keys : List DefinitionKey} {node : Json}
  {place : Place} {nestings : List Nesting}

/-- **A reference judges as the node it resolves to, wherever it stands.**  Let a document have the reference in a place
of its root, in as many nodes around it as there may be, and let its way lead through definitions that no earlier call
has begun.  The document can be processed exactly if the one can that has the node there.  Then, unless a type is
redirected, both roots accept the same and make the same models. -/
theorem reference_judges_as_written (hcarries : config.naming.Carries) (htop : config.naming.CarriesInto "")
    (calls : List Call) (definitions : Members) (hname : ∀ name, place = .member name → HasIdentifier name)
    (hholds : place.Holds nestings node)
    (hresolves : ResolvesTo ((performAll config calls).register source
      (place.around definitions nestings (referral reference))).documents source.key reference keys node)
    (hfresh : ∀ key ∈ keys, (performAll config calls).definition? key = none) :
    ((∃ root s₁, (performAll config calls).process config source
        (place.around definitions nestings (referral reference)) = (.ok root, s₁)) ↔
      ∃ root s₂, (performAll config calls).process config source (place.around definitions nestings node) =
        (.ok root, s₂)) ∧
    ∀ root root' s₁ s₂, (performAll config calls).process config source
        (place.around definitions nestings (referral reference)) = (.ok root, s₁) →
      (performAll config calls).process config source (place.around definitions nestings node) = (.ok root', s₂) →
      (performAll config calls).NoneRedirected s₁ → (performAll config calls).NoneRedirected s₂ →
      ∀ mode value, Option.Rel Evaluation.Result.Like (s₁.graph.evaluate mode root value)
        (s₂.graph.evaluate mode root' value) := by
  have horderly := orderly_performAll config calls
  generalize performAll config calls = s at horderly hresolves hfresh ⊢
  obtain ⟨_, _, _, htakes, _⟩ := hholds.exists_referring reference
  rcases referred_or_neither hholds hresolves hcarries htop horderly hname hfresh with
    ⟨hclass, copy, m, member, n, hrun, hrun', hmet⟩ | ⟨hnot, hnot'⟩
  · have hmaking := making_referral hresolves hrun hmet
    have hmaking' := making_written hholds hresolves.references_eq hcarries hclass hrun'
    have hisRoot := place.isRoot_install (rootClass s source)
    obtain ⟨_, _, hends⟩ := hmaking.exists_runs_conclude (hisRoot _ copy) hclass config
    obtain ⟨_, _, hends'⟩ := hmaking'.exists_runs_conclude (hisRoot _ member) hclass config
    refine ⟨iff_of_true ⟨_, _, (Place.runs_document htakes).2 ⟨copy, m, hrun, hends⟩⟩
      ⟨_, _, (Place.runs_document hholds.takes).2 ⟨member, n, hrun', hends'⟩⟩, ?_⟩
    clear hends hends'
    intro root root' s₁ s₂ hdone hdone' hstraight hstraight' mode value
    obtain ⟨copy₁, m₁, hmade, hconclude⟩ := (Place.runs_document htakes).1 hdone
    obtain ⟨member₁, n₁, hmade', hconclude'⟩ := (Place.runs_document hholds.takes).1 hdone'
    obtain ⟨rfl, rfl⟩ := hmade.unique hrun
    obtain ⟨rfl, rfl⟩ := hmade'.unique hrun'
    obtain ⟨rfl, hconcluded⟩ := hmaking.runs_conclude (hisRoot _ _) hconclude
    obtain ⟨rfl, hconcluded'⟩ := hmaking'.runs_conclude (hisRoot _ _) hconclude'
    refine hmet.matched.evaluate hmaking hmaking' hconcluded hconcluded' (fun name hplace => ?_) (Nat.lt_succ_self _)
      (Nat.lt_succ_self _) (fun id hid => hstraight id (Nat.le_of_succ_le hid))
      (fun id hid => hstraight' id (Nat.le_of_succ_le hid)) mode value
    subst hplace
    have hpurpose := ((makes_property _ _ trivial).1 copy₁ m₁ hrun).2
    have hpurpose' := ((makes_property _ _ trivial).1 member₁ n₁ hrun').2
    exact congrArg Property.Purpose.name (hpurpose.trans hpurpose'.symm)
  · exact ⟨iff_of_false (fun ⟨root, s₁, hdone⟩ => hnot root s₁ hdone) fun ⟨root, s₂, hdone⟩ => hnot' root s₂ hdone,
      fun root _ s₁ _ hdone => absurd hdone (hnot root s₁)⟩

/-! ## An alias of an object, and an object that is none -/

/-- A second name. -/
def nickname : Json := .object [("$ref", .string "#/definitions/b"), ("description", .string "a count")]

/-- An object with a number, and a second name for it. -/
def nicknamed : Members := [("a", nickname), ("b", counted)]

/-- Whatever the members are called, they are arrays of the node. -/
def nicknamedAs (node : Json) : Json := Place.additional.around nicknamed [.item] node

theorem resolvesTo_nicknamed : ∃ keys, ResolvesTo ((performAll oneName []).register ⟨"t", "", "T"⟩
    (nicknamedAs (referral "#/definitions/a"))).documents "t" "#/definitions/a" keys counted := by
  have hnames : HasIdentifier "a" ∧ HasIdentifier "b" ∧ references counted = [] := by decide +kernel
  generalize hdocuments : ((performAll oneName []).register ⟨"t", "", "T"⟩
    (nicknamedAs (referral "#/definitions/a"))).documents = documents
  have hfirst : targetIn? documents "t" "#/definitions/a" = some ⟨⟨"t", "/definitions/a"⟩, "", nickname, "a"⟩ :=
    hdocuments ▸ rfl
  have hsecond : targetIn? documents "t" "#/definitions/b" = some ⟨⟨"t", "/definitions/b"⟩, "", counted, "b"⟩ :=
    hdocuments ▸ rfl
  exact ⟨_, .link hfirst hnames.1 rfl rfl (by decide) (.last hsecond hnames.2.1 rfl hnames.2.2)⟩

/-- A document of these definitions, processed first of all. -/
def nicknamedRun (node : Json) : Except Halt TypeId × Session := process {} oneName ⟨"t", "", "T"⟩ (nicknamedAs node)

set_option maxRecDepth 100000 in
theorem nicknamedRun_referral : (nicknamedRun (referral "#/definitions/a")).1.toOption = some ⟨0⟩ ∧
    (nicknamedRun (referral "#/definitions/a")).2.graph.types.toList.all (·.redirect.isNone) = true := by
  decide +kernel

set_option maxRecDepth 100000 in
theorem nicknamedRun_counted : (nicknamedRun counted).1.toOption = some ⟨0⟩ ∧
    (nicknamedRun counted).2.graph.types.toList.all (·.redirect.isNone) = true := by
  decide +kernel

set_option maxRecDepth 100000 in
/-- Under its second name the object takes what it takes where it is written out, and so nothing but objects with a
number are items. -/
theorem reference_judges_as_written_nicknamed :
    (∀ value, Option.Rel Evaluation.Result.Like
      ((nicknamedRun (referral "#/definitions/a")).2.graph.evaluate .collectAll ⟨0⟩ value)
      ((nicknamedRun counted).2.graph.evaluate .collectAll ⟨0⟩ value)) ∧
    ((nicknamedRun (referral "#/definitions/a")).2.graph.evaluate .collectAll ⟨0⟩
      (.object [("x", .array [.object []])])).map (·.isValid) = some false := by
  have hrun : (Evaluation.run (nicknamedRun (referral "#/definitions/a")).2.graph .collectAll 9 ⟨0⟩
      (.object [("x", .array [.object []])])).map (·.isValid) = some false := by
    decide +kernel
  obtain ⟨hreferred, hstraight⟩ := nicknamedRun_referral
  obtain ⟨hwritten, hstraight'⟩ := nicknamedRun_counted
  refine ⟨fun value => ?_, ?_⟩
  · have hname : HasIdentifier "N" := by decide +kernel
    have hlabel : ∀ name, Place.additional = .member name → HasIdentifier name := fun _ hplace => nomatch hplace
    have hholds : Place.additional.Holds [.item] counted := ⟨⟨nofun, trivial⟩, ⟨_, rfl⟩, rfl⟩
    obtain ⟨keys, hresolves⟩ := resolvesTo_nicknamed
    have hprocessed : (performAll oneName []).process oneName ⟨"t", "", "T"⟩
        (Place.additional.around nicknamed [.item] (referral "#/definitions/a")) =
          (.ok ⟨0⟩, (nicknamedRun (referral "#/definitions/a")).2) := eq_ok_of_toOption hreferred
    have hprocessed' : (performAll oneName []).process oneName ⟨"t", "", "T"⟩
        (Place.additional.around nicknamed [.item] counted) = (.ok ⟨0⟩, (nicknamedRun counted).2) :=
      eq_ok_of_toOption hwritten
    have hjudged := (reference_judges_as_written carries_oneName (fun _ _ _ => hname) [] nicknamed hlabel hholds
      hresolves fun _ _ => rfl).2
    exact hjudged _ _ _ _ hprocessed hprocessed' (noneRedirected_of_all hstraight) (noneRedirected_of_all hstraight')
      .collectAll value
  · obtain ⟨result, hresult, hinvalid⟩ := Option.map_eq_some_iff.1 hrun
    rw [Evaluation.evaluate_eq_some_iff.2 ⟨9, hresult⟩, Option.map_some, hinvalid]

/-- No reference of these definitions leads back to where it is spelled: each leads to one of a lower rank. -/
def Ranked (definitions : Members) : Prop :=
  ∃ rank : String → Nat, ∀ definition ∈ definitions, ∀ reference ∈ references definition.2,
    ∃ other ∈ definitions, reference = "#/definitions/" ++ other.1 ∧ rank other.1 < rank definition.1

/-- An integer, and an object that refers to it. -/
def labelled : Members :=
  [("n", .object [("$ref", .string "#/definitions/s"), ("properties", .object [])]),
    ("s", .object [("type", .string "integer")])]

def labelledAs (node : Json) : Json := wrapperAmong labelled "x" node

/-- The reference to the object. -/
def labelReference : Json := .object [("$ref", .string "#/definitions/n")]

/-- The object, written out. -/
def writtenLabel : Json := .object [("$ref", .string "#/definitions/s"), ("properties", .object [])]

set_option maxRecDepth 100000 in
/-- **As a definition an object is no reference.**  Where it is written out, a node that refers to an integer accepts one,
whatever stands beside the reference; as a definition it is the object that stands there. -/
theorem not_forall_definition_judges_as_written : ¬ ∀ (config : Config) (calls : List Call) (source : Source)
    (definitions : Members) (name key : String) (node : Json) (mode : Mode) (value : Json), config.naming.Carries →
    HasIdentifier name → Ranked definitions → (key, node) ∈ definitions →
    (performAll config calls).Builds config source (wrapperAmong definitions name
      (.object [("$ref", .string ("#/definitions/" ++ key))])) →
    (performAll config calls).Builds config source (wrapperAmong definitions name node) →
    ((performAll config calls).Accepts config source (wrapperAmong definitions name
        (.object [("$ref", .string ("#/definitions/" ++ key))])) mode (.object [(name, value)]) ↔
      (performAll config calls).Accepts config source (wrapperAmong definitions name node) mode
        (.object [(name, value)])) := by
  intro h
  have hreferred : (process {} oneName ⟨"t", "", "T"⟩ (labelledAs labelReference)).1.toOption = some ⟨0⟩ ∧
      (process {} oneName ⟨"t", "", "T"⟩ (labelledAs labelReference)).2.graph.types.toList.all (·.redirect.isNone) =
        true ∧
      (Evaluation.run (process {} oneName ⟨"t", "", "T"⟩ (labelledAs labelReference)).2.graph .collectAll 9 ⟨0⟩
        (.object [("x", .ofNat 5)])).map (·.isValid) = some false := by
    decide +kernel
  have hwritten : (process {} oneName ⟨"t", "", "T"⟩ (labelledAs writtenLabel)).1.toOption = some ⟨0⟩ ∧
      (process {} oneName ⟨"t", "", "T"⟩ (labelledAs writtenLabel)).2.graph.types.toList.all (·.redirect.isNone) =
        true ∧
      (Evaluation.run (process {} oneName ⟨"t", "", "T"⟩ (labelledAs writtenLabel)).2.graph .collectAll 9 ⟨0⟩
        (.object [("x", .ofNat 5)])).map (·.isValid) = some true := by
    decide +kernel
  have hranked : Ranked labelled := by
    refine ⟨fun key => if key = "n" then 1 else 0, ?_⟩
    decide +kernel
  have hname : HasIdentifier "x" := by decide +kernel
  have hbuilds : Builds oneName {} ⟨"t", "", "T"⟩ (labelledAs labelReference) :=
    builds_of_run hreferred.1 hreferred.2.1
  have hbuilds' : Builds oneName {} ⟨"t", "", "T"⟩ (labelledAs writtenLabel) := builds_of_run hwritten.1 hwritten.2.1
  have haccepts : Accepts oneName {} ⟨"t", "", "T"⟩ (labelledAs writtenLabel) .collectAll (.object [("x", .ofNat 5)]) :=
    (accepts_iff_of_run hwritten.1 hwritten.2.2).2 rfl
  have hiff := h oneName [] ⟨"t", "", "T"⟩ labelled "x" "n" writtenLabel .collectAll (.ofNat 5) carries_oneName hname
    hranked List.mem_cons_self hbuilds hbuilds'
  exact nomatch (accepts_iff_of_run hreferred.1 hreferred.2.2).1 (hiff.2 haccepts)

end Session
end SchemaTypes

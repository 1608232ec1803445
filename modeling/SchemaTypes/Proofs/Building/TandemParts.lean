import SchemaTypes.Proofs.Building.Agreement
import SchemaTypes.Proofs.Building.TandemDrafts
/-!
# Arrays and compositions in tandem

Whatever a node entrusts to the builders of either run goes in tandem (`Tandem.Shares`).  Then so do the items of arrays
and the branches of compositions, which are properties of their own.

A property that has got its compositions is ripe (`Tandem.Ripe`): what it declares no longer matters.  Its label may
have been taken from the branches, and then may be a class name in one run and none in the other.
-/
namespace SchemaTypes
namespace Building
namespace Tandem

open Build Naming

variable {t : Tandem} {C : Prop} {build build' : Builder} {site site' : Site} {scope scope' : Scope}
  {name name' keyword : String} {node inner : Json} {required : Bool} {a b : Property} {combinator : Combinator}

/-- Where references are to definitions from before, either run is in the document that has the reference. -/
def Placed (t : Tandem) (scope scope' : Scope) : Prop :=
  ∀ {reference definition}, t.ground.leads reference definition →
    scope.document = t.places.1 ∧ scope'.document = t.places.2

/-- Where either run is: in its document, and in a class in which all classes have identifiers. -/
structure Scopes (t : Tandem) (scope scope' : Scope) : Prop where
  placed : t.Placed scope scope'
  enclosing : t.config.naming.CarriesInto scope.className ∧ t.config.naming.CarriesInto scope'.className

/-- Where a node stands in either run: the property is required in both or in neither, and both names have identifiers
or neither has. -/
structure Abreast (t : Tandem) (site site' : Site) : Prop where
  required : site'.required = site.required
  name : Named site.name site'.name
  scopes : t.Scopes site.scope site'.scope

/-- Where both types are filled in: in classes that have identifiers. -/
structure Classes (t : Tandem) (scope scope' : Scope) : Prop where
  placed : t.Placed scope scope'
  identified : HasIdentifier scope.className ∧ HasIdentifier scope'.className

theorem Classes.scopes (h : t.Classes scope scope') : t.Scopes scope scope' :=
  ⟨h.placed, t.carries.into h.identified.1, t.carries.into h.identified.2⟩

/-- What the node entrusts to the builders goes in tandem, and a property has the name of its site. -/
structure Shares (t : Tandem) (node : Json) (build build' : Builder) : Prop where
  goes : ∀ (C : Prop) (site site' : Site) (inner : Json), t.Abreast site site' → Entrusts node inner →
    t.Goes C (build site inner) (build' site' inner) fun C' i j => C' → t.Ids i j
  first : ∀ (site : Site) (inner : Json), Names t.config (build site inner) site.name
  second : ∀ (site : Site) (inner : Json), Names t.config (build' site inner) site.name

/-- The result, and what is known of results of the first computation anyhow. -/
theorem Goes.told {α β : Type} {x : Build α} {y : Build β} {Q : Prop → α → β → Prop} {q : α → Prop}
    (h : t.Goes C x y Q) (hx : Tells t.config x q) : t.Goes C x y fun C' a b => Q C' a b ∧ q a := by
  intro s₁ s₂ hserves hcoupled
  refine ((h s₁ s₂ hserves hcoupled).told (q := fun a _ => q a) fun a m hrun => (hx hrun).2).imp ?_
  exact fun _ _ _ _ ⟨hQ, _, hq⟩ => ⟨hQ, hq⟩

/-! ## Arrays -/

theorem goes_nested (hb : t.Shares node build build') (hscopes : t.Scopes scope scope') (hname : Named name name')
    (hinner : Entrusts node inner) :
    t.Goes C (nested build scope name inner) (nested build' scope' name' inner) fun C' i j => C' → t.Ids i j := by
  unfold nested
  have hsites : t.Abreast { scope, name, required := true } { scope := scope', name := name', required := true } :=
    ⟨rfl, hname, hscopes⟩
  refine (hb.goes C _ _ inner hsites hinner).bind fun C' i j _ hij => ?_
  refine (goes_modifyProperty (F := Property.relax) hij (fun _ => rfl) fun _ _ hkin => hkin.relax).andThen
    fun C'' _ _ hC => ?_
  exact goes_pure fun hc => hij (hC hc)

/-- Names that begin with the same word. -/
theorem named_head {first : String} {c : Char} {rest : List Char} (hfirst : first.toList = c :: rest)
    (hc : Text.isAlphanumeric c = true) (more more' : String) : Named (first ++ more) (first ++ more') :=
  named_of (hasIdentifier_of_head hfirst hc more) (hasIdentifier_of_head hfirst hc more')

theorem goes_addTuple (hb : t.Shares node build build') (hscopes : t.Scopes scope scope') (h : t.Drafts C a b)
    {items : List Json} (hitems : node.get? "items" = some (.array items)) :
    t.Goes C (addTuple build scope a items node) (addTuple build' scope' b items node) t.Drafts := by
  unfold addTuple
  have hpositions : ∀ e ∈ items.zipIdx, ∀ C', (C' → C) → t.Goes C'
      (nested build scope ("tuple item #" ++ toString e.2 ++ " of array " ++ a.name) e.1)
      (nested build' scope' ("tuple item #" ++ toString e.2 ++ " of array " ++ b.name) e.1)
      fun C'' i j => C'' → t.Ids i j := by
    intro e he C' _
    refine goes_nested hb hscopes ?_ (.hands (.item hitems (List.fst_mem_of_mem_zipIdx he)))
    simp only [String.append_assoc]
    exact named_head rfl (by decide +kernel) _ _
  refine (goes_mapM hpositions).bind fun C' is js hC hijs => ?_
  have htuple : t.Drafts C' (a.addCheck (.tuple is)) (b.addCheck (.tuple js)) :=
    (h.mono hC).addCheck rfl rfl fun hc =>
      ⟨congrArg (fun n => "tuple " ++ toString n) (hijs hc).length_eq, .tuple (forall₂_links (hijs hc))⟩
  simp only
  split
  · exact goes_pure htuple
  · exact goes_pure htuple
  · exact goes_pure (htuple.addCheck rfl rfl fun hc => (hijs hc).length_eq ▸ same_refl rfl rfl)
  · rename_i members hget
    refine (goes_nested hb hscopes (named_head rfl (by decide +kernel) _ _)
      (.hands (.value (by decide) hget))).bind fun C'' i j hC' hij => goes_pure ?_
    exact (htuple.mono hC').addCheck rfl rfl fun hc =>
      (hijs (hC' hc)).length_eq ▸ ⟨rfl, .additionalItems (hij hc).links⟩
  · exact goes_malformed

theorem goes_addItems (hb : t.Shares node build build') (hscopes : t.Scopes scope scope') (h : t.Drafts C a b) :
    t.Goes C (addItems build scope a node) (addItems build' scope' b node) t.Drafts := by
  unfold addItems
  split
  · exact goes_pure h
  · rename_i items hget
    exact goes_addTuple hb hscopes h hget
  · rename_i item _ hget
    refine (goes_nested hb hscopes (named_head rfl (by decide +kernel) _ _)
      (.hands (.value (by decide) hget))).bind fun C' i j hC hij => goes_pure ?_
    exact (h.mono hC).addCheck rfl rfl fun hc => ⟨rfl, .items (hij hc).links⟩

theorem goes_addContains (hb : t.Shares node build build') (hscopes : t.Scopes scope scope') (h : t.Drafts C a b) :
    t.Goes C (addContains build scope a node) (addContains build' scope' b node) t.Drafts := by
  unfold addContains
  split
  · exact goes_pure h
  · rename_i item hget
    refine (goes_nested hb hscopes (named_head rfl (by decide +kernel) _ _)
      (.hands (.value (by decide) hget))).bind fun C' i j hC hij => goes_pure ?_
    exact (h.mono hC).addCheck rfl rfl fun hc => ⟨rfl, .contains (hij hc).links⟩

theorem goes_addArrayChecks (hb : t.Shares node build build') (hscopes : t.Scopes scope scope') (h : t.Drafts C a b) :
    t.Goes C (addArrayChecks build scope a node) (addArrayChecks build' scope' b node) t.Drafts := by
  unfold addArrayChecks
  refine (goes_addCount h (fun _ => rfl) (fun _ => rfl) fun _ => rfl).bind fun _ a b _ h => ?_
  refine (goes_addCount h (fun _ => rfl) (fun _ => rfl) fun _ => rfl).bind fun _ a b _ h => ?_
  refine Goes.read goes_flag fun C' unique hC => ?_
  have hunique : t.Drafts C' (if unique = true then a.addCheck .uniqueItems else a)
      (if unique = true then b.addCheck .uniqueItems else b) := by
    split
    · exact (h.mono hC).addLeaf rfl rfl rfl
    · exact h.mono hC
  exact (goes_addItems hb hscopes hunique).bind fun _ a b _ h => goes_addContains hb hscopes h

theorem goes_addKindChecks (hb : t.Shares node build build') (hscopes : t.Scopes scope scope') (h : t.Drafts C a b)
    (kind : Kind) :
    t.Goes C (addKindChecks build scope kind a node) (addKindChecks build' scope' kind b node) t.Drafts := by
  unfold addKindChecks
  split
  · exact goes_addStringChecks h
  · exact goes_addNumberChecks h
  · exact goes_addNumberChecks h
  · exact goes_addArrayChecks hb hscopes h
  · exact goes_pure h
  · exact goes_pure h
  · exact goes_pure h

theorem goes_ofKind (hb : t.Shares node build build') (hsites : t.Abreast site site') (kind : Kind) :
    t.Goes C (ofKind build site node kind) (ofKind build' site' node kind) t.Drafts := by
  unfold ofKind
  refine (goes_presentProperty hsites.name hsites.required).bind fun C' a b _ h => ?_
  rw [hsites.required]
  refine Goes.read goes_allowsNull fun C'' allowed hC => ?_
  have hlabelled : t.Drafts C'' { a with label := some (labelOf kind) } { b with label := some (labelOf kind) } :=
    (h.1.mono hC).relabel rfl
  exact goes_addKindChecks hb hsites.scopes
    (hlabelled.addType h.2 [kind] (allowed && kind != .null)) kind

/-! ## Compositions on a property -/

/-- Properties that correspond as long as the runs do, whatever they declare. -/
structure Ripe (t : Tandem) (C : Prop) (a b : Property) : Prop where
  strict : a.strict = b.strict
  kin : C → t.Kin a b

theorem Drafts.ripe (h : t.Drafts C a b) : t.Ripe C a b := ⟨h.strict_eq, h.kin⟩

theorem Ripe.mono {C' : Prop} (h : t.Ripe C a b) (hC : C' → C) : t.Ripe C' a b := ⟨h.strict, fun hc => h.kin (hC hc)⟩

theorem Ripe.addCheck (h : t.Ripe C a b) {c d : Check} (hsame : C → t.Same c d) :
    t.Ripe C (a.addCheck c) (b.addCheck d) := ⟨h.strict, fun hC => (h.kin hC).addCheck (hsame hC)⟩

theorem Ripe.recast (h : t.Ripe C a b) {a' b' : Property} (ha : Recast a a') (hb : Recast b b') : t.Ripe C a' b' :=
  ⟨ha.strict.trans (h.strict.trans hb.strict.symm), fun hC => (h.kin hC).recast ha hb⟩

theorem same_composition {as bs : List Branch} {onObject : Bool}
    (h : List.Forall₂ (fun a b : Branch => t.Ids a.property b.property ∧ a.affected = b.affected) as bs) :
    t.Same (.composition combinator as onObject) (.composition combinator bs onObject) := by
  refine ⟨?_, .composition (h.imp fun _ _ hab => ⟨hab.1.links, hab.2⟩)⟩
  have haffected : as.map (fun branch => ",".intercalate branch.affected) =
      bs.map fun branch => ",".intercalate branch.affected := by
    induction h with
    | nil => rfl
    | cons hab _ ih => rw [List.map_cons, List.map_cons, hab.2, ih]
  exact congrArg (fun names => combinator.keyword ++ " object=" ++ toString onObject ++ " affected=["
    ++ ";".intercalate names ++ "]") haffected

theorem same_conditional {i j : PropertyId} {c d c' d' : Option PropertyId} {onObject : Bool} (hij : t.Ids i j)
    (hthen : Option.Rel t.Ids c d) (helse : Option.Rel t.Ids c' d') :
    t.Same (.conditional i c c' onObject) (.conditional j d d' onObject) := by
  refine ⟨?_, .conditional hij.links (rel_mono (fun _ _ => Ids.links) hthen) (rel_mono (fun _ _ => Ids.links) helse)⟩
  have hsome : ∀ {x y : Option PropertyId}, Option.Rel t.Ids x y → x.isSome = y.isSome := by
    intro x y h
    cases h <;> rfl
  exact congrArg₂ (fun withThen withElse =>
    "if then=" ++ toString withThen ++ " else=" ++ toString withElse ++ " object=" ++ toString onObject)
    (hsome hthen) (hsome helse)

theorem goes_noteIfEmpty {branches : List Json} :
    t.Goes C (noteIfEmpty combinator name branches) (noteIfEmpty combinator name' branches) fun _ _ _ => True := by
  unfold noteIfEmpty
  split
  · exact goes_notify
  · exact goes_pure trivial

theorem goes_branch (hb : t.Shares node build build') (hsites : t.Abreast site site') (hinner : Entrusts node inner) :
    t.Goes C (branch build site inner) (branch build' site' inner) fun C' i j => C' → t.Ids i j := by
  unfold branch
  rw [hsites.required]
  have hrequired : t.Abreast { scope := site.scope, name := site.name, required := true }
      { scope := site'.scope, name := site'.name, required := true } := ⟨rfl, hsites.name, hsites.scopes⟩
  refine (hb.goes C _ _ inner hrequired hinner).bind fun C' i j _ hij => ?_
  simp only
  split
  · refine (goes_modifyProperty (F := Property.relax) hij (fun _ => rfl) fun _ _ hkin => hkin.relax).andThen
      fun C'' _ _ hC => ?_
    exact goes_pure fun hc => hij (hC hc)
  · exact goes_pure hij

theorem goes_addComposition (hb : t.Shares node build build') (hsites : t.Abreast site site') (h : t.Ripe C a b)
    (combinator : Combinator) :
    t.Goes C (addComposition build site node a combinator) (addComposition build' site' node b combinator) t.Ripe := by
  unfold addComposition
  refine (goes_branches?.told Chain.tells_branches?).bind fun C' found _ hC hfound => ?_
  obtain ⟨rfl, hfound⟩ := hfound
  split
  · exact goes_pure (h.mono hC)
  · rename_i nodes
    refine goes_noteIfEmpty.andThen fun C₁ _ _ hC₁ => ?_
    have hbranches : ∀ e ∈ nodes, ∀ C', (C' → C₁) → t.Goes C' (branch build site (Keyword.inheritType node e))
        (branch build' site' (Keyword.inheritType node e)) fun C'' i j => C'' → t.Ids i j := by
      intro e he C' _
      rcases hfound nodes rfl e he with ⟨keyword, hkeyword, hget⟩ | ⟨keyword, hkeyword, items, hget, hmem⟩
      · exact goes_branch hb hsites (.hands (.branch hkeyword hget))
      · exact goes_branch hb hsites (.hands (.branches hkeyword hget hmem))
    refine (goes_mapM hbranches).bind fun C₂ is js hC₂ hijs => goes_graph_bind fun graph graph' _ => ?_
    have hlabelled : ∀ (p : Property) (condition : Bool) (labels : List (Option TypeLabel)),
        Recast p (if condition = true then inferLabel p labels else p) := by
      intro p condition labels
      split
      · exact recast_inferLabel p labels
      · exact ⟨rfl, rfl, rfl, rfl, rfl⟩
    refine goes_pure (((h.mono fun hc => hC (hC₁ (hC₂ hc))).recast (hlabelled a _ _) (hlabelled b _ _)).addCheck
      fun hc => same_composition ?_)
    rw [List.forall₂_map_left_iff, List.forall₂_map_right_iff]
    exact (hijs hc).imp fun _ _ hij => ⟨hij, rfl⟩

theorem goes_conditional? {buildBranch buildBranch' : Json → Build PropertyId} {onObject : Bool}
    (hbranch : ∀ (C' : Prop), ∀ keyword ∈ ["not", "if", "then", "else"], ∀ inner, node.get? keyword = some inner →
      t.Goes C' (buildBranch inner) (buildBranch' inner) fun C'' i j => C'' → t.Ids i j) :
    t.Goes C (conditional? buildBranch name node onObject) (conditional? buildBranch' name' node onObject)
      fun C' c d => Option.Rel (fun c d => C' → t.Same c d) c d := by
  unfold conditional?
  split
  · exact goes_pure .none
  · rename_i condition hget
    split
    · refine (hbranch C "if" (by decide) _ hget).bind fun C₁ i j _ hij => ?_
      refine (goes_option_mapM fun inner hinner => hbranch C₁ "then" (by decide) inner hinner).bind
        fun C₂ c d hC₂ hthen => ?_
      refine (goes_option_mapM fun inner hinner => hbranch C₂ "else" (by decide) inner hinner).bind
        fun C₃ c' d' hC₃ helse => ?_
      exact goes_pure (.some fun hc => same_conditional (hij (hC₂ (hC₃ hc))) (hthen (hC₃ hc)) (helse hc))
    · exact goes_notify.andThen fun _ _ _ _ => goes_pure .none

/-- A composed property that has no check to decide about null gets one. -/
theorem find?_isSome_eq (h : t.Kin a b) {p : Check → Bool} (hp : ∀ c d, t.Same c d → p c = p d) :
    (a.validators.find? p).isSome = (b.validators.find? p).isSome := by
  unfold Validators.find?
  have hlists := h.validators.toList
  generalize a.validators.toList = vs at hlists
  generalize b.validators.toList = ws at hlists
  induction hlists with
  | nil => rfl
  | @cons v w _ _ hvw _ ih =>
    rw [List.map_cons, List.map_cons, List.find?_cons, List.find?_cons, hp v.check w.check ⟨hvw.fingerprint, hvw.like⟩]
    split
    · rfl
    · exact ih

theorem goes_settle (h : t.Ripe C a b) (required : Bool) :
    t.Goes C
      (if (a.validators.find? isComposed).isSome && (a.validators.find? decidesNull).isNone then do
        let allowed ← allowsNull required
        return a.addCheck (.implicitNull (allowed && !a.strict))
      else return a)
      (if (b.validators.find? isComposed).isSome && (b.validators.find? decidesNull).isNone then do
        let allowed ← allowsNull required
        return b.addCheck (.implicitNull (allowed && !b.strict))
      else return b)
      t.Ripe := by
  -- Whatever the condition says, nothing but the draft depends on it.
  have hruns : ∀ (condition : Bool) (p : Property) (s : Session),
      (if condition = true then do
        let allowed ← allowsNull required
        return p.addCheck (.implicitNull (allowed && !p.strict))
      else return p : Build Property).Runs t.config s
        (if condition = true then
          p.addCheck (.implicitNull (t.config.settings.implicitNull && !required && !p.strict)) else p) s := by
    intro condition p s
    split
    · exact runs_bind.2 ⟨_, s, runs_allowsNull.2 ⟨rfl, rfl⟩, runs_pure.2 ⟨rfl, rfl⟩⟩
    · exact runs_pure.2 ⟨rfl, rfl⟩
  have hcondition : ∀ hC : C, ((a.validators.find? isComposed).isSome && (a.validators.find? decidesNull).isNone) =
      ((b.validators.find? isComposed).isSome && (b.validators.find? decidesNull).isNone) := by
    intro hC
    rw [← Option.not_isSome, ← Option.not_isSome, find?_isSome_eq (h.kin hC) fun c d hsame => ?_,
      find?_isSome_eq (h.kin hC) fun c d hsame => ?_]
    · cases hsame.like <;> rfl
    · cases hsame.like <;> rfl
  refine fun s₁ s₂ _ hcoupled => goesAt_of_runs (hruns _ a s₁) (hruns _ b s₂) (.refl hcoupled) ⟨?_, fun hC => ?_⟩
  · have hstrict : ∀ (condition : Bool) (p : Property) (settles : Bool),
        (if condition = true then p.addCheck (.implicitNull settles) else p).strict = p.strict := by
      intro condition p settles
      split <;> rfl
    rw [hstrict, hstrict, h.strict]
  · rw [hcondition hC, h.strict]
    split
    · exact (h.kin hC).addCheck (same_refl rfl rfl)
    · exact h.kin hC

theorem goes_applyCompositions (hb : t.Shares node build build') (hsites : t.Abreast site site') (h : t.Drafts C a b) :
    t.Goes C (applyCompositions build site node a) (applyCompositions build' site' node b) t.Ripe := by
  unfold applyCompositions
  have hfold : t.Goes C (Combinator.all.foldlM (addComposition build site node) a)
      (Combinator.all.foldlM (addComposition build' site' node) b) t.Ripe :=
    goes_foldlM h.ripe fun combinator _ C' a b _ h => goes_addComposition hb hsites h combinator
  refine hfold.bind fun C₁ a b _ h => ?_
  have hconditional : t.Goes C₁
      (conditional? (fun inner => branch build site (Keyword.inheritType node inner)) site.name node false)
      (conditional? (fun inner => branch build' site' (Keyword.inheritType node inner)) site'.name node false)
      fun C' c d => Option.Rel (fun c d => C' → t.Same c d) c d :=
    goes_conditional? fun C' keyword hkeyword inner hget => goes_branch hb hsites (.hands (.branch hkeyword hget))
  refine hconditional.bind fun C₂ c d hC₂ hcd => ?_
  have hchecked : t.Ripe C₂ ((c.map a.addCheck).getD a) ((d.map b.addCheck).getD b) := by
    cases hcd with
    | none => exact h.mono hC₂
    | some hsame => exact (h.mono hC₂).addCheck hsame
  rw [hsites.required]
  exact goes_settle hchecked site.required

end Tandem
end Building
end SchemaTypes

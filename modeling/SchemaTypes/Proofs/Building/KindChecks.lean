import SchemaTypes.Building.Kinds
import SchemaTypes.Proofs.Building.PropertyNames
import SchemaTypes.Proofs.Check.Families
/-!
# The checks of a kind

The keywords of a kind add checks of its family, and the draft they add them to has no say in which (`Adds`).  So a
required property of a kind has its presence and type checks, and then the family (`poses_ofKind`), and integers have
the same family as numbers (`family_of_number`).
-/
namespace SchemaTypes
namespace Building

open Build

variable {config : Config} {kind : Kind} {low mid high : Nat} {checks others : List Check} {f g : Property → Build Property}
  {x y : String → Build (List Check)} {build : Builder} {scope : Scope} {site : Site} {node : Json}
  {property draft : Property} {keyword name : String} {s s' : Session}

/-- Checks of one family, from one place on and before another. -/
structure Lies (kind : Kind) (low high : Nat) (checks : List Check) : Prop where
  family : Check.IsFamily kind checks
  places : ∀ c ∈ checks, low ≤ c.place ∧ c.place < high

theorem lies_nil : Lies kind low high [] := ⟨Check.isFamily_nil kind, fun _ h => absurd h List.not_mem_nil⟩

theorem lies_singleton {c : Check} (hshape : c.shape? = some kind.shape) (hlow : low ≤ c.place) (hhigh : c.place < high) :
    Lies kind low high [c] := by
  refine ⟨⟨fun d hd => ?_, List.pairwise_singleton _ _⟩, fun d hd => ?_⟩
  · exact List.mem_singleton.1 hd ▸ hshape
  · exact List.mem_singleton.1 hd ▸ ⟨hlow, hhigh⟩

theorem Lies.append (h : Lies kind low mid checks) (h' : Lies kind mid high others) (hlow : low ≤ mid) (hhigh : mid ≤ high) :
    Lies kind low high (checks ++ others) := by
  refine ⟨⟨fun c hc => ?_, List.pairwise_append.2 ⟨h.family.ordered, h'.family.ordered, fun c hc d hd => ?_⟩⟩,
    fun c hc => ?_⟩
  · rcases List.mem_append.1 hc with hc | hc
    · exact h.family.shape c hc
    · exact h'.family.shape c hc
  · exact Nat.lt_of_lt_of_le (h.places c hc).2 (h'.places d hd).1
  · rcases List.mem_append.1 hc with hc | hc
    · exact ⟨(h.places c hc).1, Nat.lt_of_lt_of_le (h.places c hc).2 hhigh⟩
    · exact ⟨Nat.le_trans hlow (h'.places c hc).1, (h'.places c hc).2⟩

theorem Lies.widen (h : Lies kind mid high checks) (hlow : low ≤ mid) : Lies kind low high checks :=
  ⟨h.family, fun c hc => ⟨Nat.le_trans hlow (h.places c hc).1, (h.places c hc).2⟩⟩

/-- Drafts get checks of a family, and no more is asked of a draft than its name. -/
structure Adds (config : Config) (kind : Kind) (low high : Nat) (f : Property → Build Property)
    (x : String → Build (List Check)) : Prop where
  eq : ∀ property, f property = x property.name >>= fun checks => pure (checks.foldl Property.addCheck property)
  gives : ∀ name, Gives config (x name) (Lies kind low high)

theorem name_foldl_addCheck (checks : List Check) (property : Property) :
    (checks.foldl Property.addCheck property).name = property.name :=
  List.foldlRecOn _ _ (motive := fun p : Property => p.name = property.name) rfl fun _ h _ _ => h

theorem adds_nothing : Adds config kind low high pure fun _ => pure [] :=
  ⟨fun _ => rfl, fun _ => keeps_pure lies_nil⟩

theorem Adds.andThen (hf : Adds config kind low mid f x) (hg : Adds config kind mid high g y) (hlow : low ≤ mid)
    (hhigh : mid ≤ high) : Adds config kind low high (fun property => f property >>= g) fun name => do
      let checks ← x name
      let others ← y name
      return checks ++ others := by
  refine ⟨fun property => ?_, fun name => ?_⟩
  · rw [hf.eq]
    simp only [bind_assoc, pure_bind, hg.eq, name_foldl_addCheck, List.foldl_append]
  · exact (hf.gives name).bind fun checks hchecks => (hg.gives name).bind fun others hothers =>
      keeps_pure (hchecks.append hothers hlow hhigh)

theorem Adds.congr (hf : Adds config kind low high f x) (h : ∀ property, g property = f property) :
    Adds config kind low high g x := ⟨fun property => (h property).trans (hf.eq property), hf.gives⟩

/-! ## Strings and numbers -/

theorem exists_adds_addPattern : ∃ x, Adds config .string 5 6 (addPattern · node) x := by
  unfold addPattern
  split
  · exact ⟨_, adds_nothing⟩
  · rename_i source _
    refine ⟨fun name => do return [.pattern (← Keyword.pattern name source)], fun property => ?_, fun name => ?_⟩
    · rw [bind_assoc]
      rfl
    · exact gives_after fun pattern => keeps_pure (lies_singleton rfl (Nat.le_refl 5) (Nat.lt_succ_self 5))
  · exact ⟨fun name => Build.malformed name "pattern must be a string", fun _ => rfl, fun _ => keeps_malformed⟩

/-- The check of a count, if it is asked for. -/
theorem exists_adds_addCount {check : Nat → Check} (hshape : ∀ n, (check n).shape? = some kind.shape)
    (hplace : ∀ n, (check n).place = low) :
    ∃ x, Adds config kind low (low + 1) (addCount · node keyword check) x := by
  refine ⟨fun name => do return ((← Keyword.count? name node keyword).map check).toList, fun property => ?_,
    fun name => gives_after fun found => keeps_pure ?_⟩
  · unfold addCount
    rw [bind_assoc]
    refine congrArg (_ >>= ·) (funext fun found => ?_)
    cases found <;> rfl
  · cases found with
    | none => exact lies_nil
    | some n => exact lies_singleton (hshape n) (Nat.le_of_eq (hplace n).symm) (hplace n ▸ Nat.lt_succ_self low)

theorem exists_adds_refuseFormat : ∃ x, Adds config .string 5 5 (fun property => do
    refuseFormat property node
    return property) x := by
  unfold refuseFormat
  split
  · exact ⟨_, adds_nothing⟩
  · exact ⟨fun name => Build.refuse (.unsupportedFormat name _), fun _ => rfl, fun _ => keeps_refuse⟩
  · exact ⟨fun name => Build.refuse (.unsupportedFormat name _), fun _ => rfl, fun _ => keeps_refuse⟩

theorem exists_adds_addStringChecks : ∃ x, Adds config .string 5 8 (addStringChecks · node) x := by
  obtain ⟨_, hformat⟩ : ∃ x, Adds config .string 5 5 (fun property => do
      refuseFormat property node
      return property) x := exists_adds_refuseFormat
  obtain ⟨_, hpattern⟩ : ∃ x, Adds config .string 5 6 (addPattern · node) x := exists_adds_addPattern
  obtain ⟨_, hleast⟩ : ∃ x, Adds config .string 6 7 (addCount · node "minLength" .minLength) x :=
    exists_adds_addCount (fun _ => rfl) fun _ => rfl
  obtain ⟨_, hmost⟩ : ∃ x, Adds config .string 7 8 (addCount · node "maxLength" .maxLength) x :=
    exists_adds_addCount (fun _ => rfl) fun _ => rfl
  have hlengths := hleast.andThen hmost (by decide) (by decide)
  refine ⟨_, (hformat.andThen (hpattern.andThen hlengths (by decide) (by decide)) (by decide) (by decide)).congr
    fun property => ?_⟩
  rw [bind_assoc]
  rfl

/-- A bound, and the exclusive one before it if that is a bound of its own. -/
theorem exists_adds_addBound {exclusiveKeyword : String} {check : Number → Bool → Check}
    (hshape : ∀ limit exclusive, (check limit exclusive).shape? = some kind.shape)
    (hplace : ∀ limit exclusive, (check limit exclusive).place = if exclusive then low else low + 1) :
    ∃ x, Adds config kind low (low + 2) (addBound · node keyword exclusiveKeyword check) x := by
  have hone : ∀ limit exclusive, Lies kind low (low + 2) [check limit exclusive] := by
    intro limit exclusive
    refine lies_singleton (hshape limit exclusive) ?_ ?_
    · rw [hplace]
      split <;> omega
    · rw [hplace]
      split <;> omega
  have hlimit : ∀ (limit? : Option Number) exclusive,
      Lies kind low (low + 2) (limit?.map (check · exclusive)).toList := by
    intro limit? exclusive
    cases limit? with
    | none => exact lies_nil
    | some limit => exact hone limit exclusive
  unfold addBound
  split
  · refine ⟨fun name => do return ((← Keyword.number? name node keyword).map (check · false)).toList, fun property => ?_,
      fun name => gives_after fun limit? => keeps_pure (hlimit limit? false)⟩
    rw [bind_assoc]
    refine congrArg (_ >>= ·) (funext fun limit? => ?_)
    cases limit? <;> rfl
  · rename_i exclusive _
    refine ⟨fun name => do return ((← Keyword.number? name node keyword).map (check · exclusive)).toList,
      fun property => ?_, fun name => gives_after fun limit? => keeps_pure (hlimit limit? exclusive)⟩
    rw [bind_assoc]
    refine congrArg (_ >>= ·) (funext fun limit? => ?_)
    cases limit? <;> rfl
  · rename_i bound _
    refine ⟨fun name => do return check bound true :: ((← Keyword.number? name node keyword).map (check · false)).toList,
      fun property => ?_, fun name => gives_after fun limit? => keeps_pure ?_⟩
    · rw [bind_assoc]
      refine congrArg (_ >>= ·) (funext fun limit? => ?_)
      cases limit? <;> rfl
    · cases limit? with
      | none => exact hone bound true
      | some limit =>
        have hfirst : Lies kind low (low + 1) [check bound true] :=
          lies_singleton (hshape _ _) (by rw [hplace]; exact Nat.le_refl _) (by rw [hplace]; exact Nat.lt_succ_self _)
        have hsecond : Lies kind (low + 1) (low + 2) [check limit false] :=
          lies_singleton (hshape _ _) (by rw [hplace]; exact Nat.le_refl _) (by rw [hplace]; exact Nat.lt_succ_self _)
        exact hfirst.append hsecond (Nat.le_succ _) (Nat.le_succ _)
  · refine ⟨fun name => do
      let _ ← Keyword.number? name node keyword
      Build.malformed name (exclusiveKeyword ++ " must be a number or a boolean"), fun property => ?_,
      fun name => gives_after fun _ => keeps_malformed⟩
    rw [bind_assoc]
    rfl

theorem adds_multipleOf : Adds config .number 4 5 (fun property => do
    match ← Keyword.number? property.name node "multipleOf" with
    | some divisor => return property.addCheck (.multipleOf divisor)
    | none => return property) fun name => do
      return ((← Keyword.number? name node "multipleOf").map .multipleOf).toList := by
  refine ⟨fun property => ?_, fun name => gives_after fun found => keeps_pure ?_⟩
  · rw [bind_assoc]
    refine congrArg (_ >>= ·) (funext fun found => ?_)
    cases found <;> rfl
  · cases found with
    | none => exact lies_nil
    | some divisor => exact lies_singleton rfl (Nat.le_refl 4) (Nat.lt_succ_self 4)

theorem exists_adds_addNumberChecks : ∃ x, Adds config .number 0 5 (addNumberChecks · node) x := by
  obtain ⟨_, hleast⟩ : ∃ x, Adds config .number 0 2 (addBound · node "minimum" "exclusiveMinimum" .minimum) x :=
    exists_adds_addBound (fun _ _ => rfl) fun _ exclusive => by cases exclusive <;> rfl
  obtain ⟨_, hmost⟩ : ∃ x, Adds config .number 2 4 (addBound · node "maximum" "exclusiveMaximum" .maximum) x :=
    exists_adds_addBound (fun _ _ => rfl) fun _ exclusive => by cases exclusive <;> rfl
  exact ⟨_, hleast.andThen (hmost.andThen adds_multipleOf (by decide) (by decide)) (by decide) (by decide)⟩

/-! ## Arrays -/

theorem exists_adds_addTuple {items : List Json} :
    ∃ x, Adds config .array 12 15 (addTuple build scope · items node) x := by
  have htuple : ∀ positions : List PropertyId, Lies .array 12 13 [Check.tuple positions] :=
    fun _ => lies_singleton rfl (Nat.le_refl 12) (Nat.lt_succ_self 12)
  have hmore : ∀ (positions : List PropertyId) {c : Check}, c.shape? = some .array → 13 ≤ c.place → c.place < 15 →
      Lies .array 12 15 [Check.tuple positions, c] :=
    fun positions _ hshape hlow hhigh => (htuple positions).append (lies_singleton hshape hlow hhigh) (by decide) (by decide)
  have halone : ∀ positions : List PropertyId, Lies .array 12 15 [Check.tuple positions] :=
    fun _ => lies_singleton rfl (Nat.le_refl 12) (by decide : 12 < 15)
  -- Whatever stands behind them, the positions are built first.
  let positions : String → Build (List PropertyId) := fun name => items.zipIdx.mapM fun position =>
    Build.nested build scope ("tuple item #" ++ toString position.2 ++ " of array " ++ name) position.1
  unfold addTuple
  simp only
  split
  · exact ⟨fun name => do return [.tuple (← positions name)], fun property => by rw [bind_assoc]; rfl,
      fun name => gives_after fun found => keeps_pure (halone found)⟩
  · exact ⟨fun name => do return [.tuple (← positions name)], fun property => by rw [bind_assoc]; rfl,
      fun name => gives_after fun found => keeps_pure (halone found)⟩
  · refine ⟨fun name => do
      let found ← positions name
      return [.tuple found, .noAdditionalItems found.length], fun property => by rw [bind_assoc]; rfl,
      fun name => gives_after fun found => keeps_pure (hmore found rfl ?_ ?_)⟩
    · exact Nat.le_refl 13
    · exact (by decide : 13 < 15)
  · rename_i members _
    refine ⟨fun name => do
      let found ← positions name
      let item ← Build.nested build scope ("additional item of array " ++ name) (.object members)
      return [.tuple found, .additionalItems found.length item], fun property => ?_,
      fun name => gives_after fun found => gives_after fun item => keeps_pure (hmore found rfl ?_ ?_)⟩
    · simp only [bind_assoc, pure_bind]
      rfl
    · exact (by decide : 13 ≤ 14)
    · exact Nat.lt_succ_self 14
  · refine ⟨fun name => do
      let _ ← positions name
      Build.malformed name "additionalItems must be a boolean or a schema", fun property => ?_,
      fun name => gives_after fun _ => keeps_malformed⟩
    rw [bind_assoc]
    rfl

theorem exists_adds_addItems : ∃ x, Adds config .array 11 15 (addItems build scope · node) x := by
  unfold addItems
  split
  · exact ⟨_, adds_nothing⟩
  · rename_i items _
    obtain ⟨x, h⟩ : ∃ x, Adds config .array 12 15 (addTuple build scope · items node) x := exists_adds_addTuple
    exact ⟨x, h.eq, fun name => (h.gives name).imp fun _ hlies => hlies.widen (by decide)⟩
  · rename_i item _ _
    refine ⟨fun name => do return [.items (← Build.nested build scope ("item of array " ++ name) item)],
      fun property => by rw [bind_assoc]; rfl,
      fun name => gives_after fun id => keeps_pure (lies_singleton rfl (Nat.le_refl 11) (by decide : 11 < 15))⟩

theorem exists_adds_addContains : ∃ x, Adds config .array 15 16 (addContains build scope · node) x := by
  unfold addContains
  split
  · exact ⟨_, adds_nothing⟩
  · rename_i item _
    refine ⟨fun name => do return [.contains (← Build.nested build scope ("contained item of array " ++ name) item)],
      fun property => by rw [bind_assoc]; rfl,
      fun name => gives_after fun id => keeps_pure (lies_singleton rfl (Nat.le_refl 15) (Nat.lt_succ_self 15))⟩

theorem exists_adds_addArrayChecks : ∃ x, Adds config .array 8 16 (addArrayChecks build scope · node) x := by
  obtain ⟨_, hleast⟩ : ∃ x, Adds config .array 8 9 (addCount · node "minItems" .minItems) x :=
    exists_adds_addCount (fun _ => rfl) fun _ => rfl
  obtain ⟨_, hmost⟩ : ∃ x, Adds config .array 9 10 (addCount · node "maxItems" .maxItems) x :=
    exists_adds_addCount (fun _ => rfl) fun _ => rfl
  have hunique : Adds config .array 10 11 (fun property => do
      let unique ← Keyword.flag property.name node "uniqueItems"
      return if unique then property.addCheck .uniqueItems else property) fun name => do
        return if ← Keyword.flag name node "uniqueItems" then [.uniqueItems] else [] := by
    refine ⟨fun property => ?_, fun name => gives_after fun unique => keeps_pure ?_⟩
    · rw [bind_assoc]
      refine congrArg (_ >>= ·) (funext fun unique => ?_)
      cases unique <;> rfl
    · split
      · exact lies_singleton rfl (Nat.le_refl 10) (Nat.lt_succ_self 10)
      · exact lies_nil
  obtain ⟨_, hitems⟩ : ∃ x, Adds config .array 11 15 (addItems build scope · node) x := exists_adds_addItems
  obtain ⟨_, hcontains⟩ : ∃ x, Adds config .array 15 16 (addContains build scope · node) x := exists_adds_addContains
  have hparts := hitems.andThen hcontains (by decide) (by decide)
  have hcounts := hleast.andThen (hmost.andThen (hunique.andThen hparts (by decide) (by decide)) (by decide) (by decide))
    (by decide) (by decide)
  refine ⟨_, hcounts.congr fun property => ?_⟩
  unfold addArrayChecks
  simp only [bind_assoc, pure_bind]

/-! ## All kinds -/

theorem exists_adds_addKindChecks (kind : Kind) : ∃ x : String → Build (List Check),
    (∀ property, addKindChecks build scope kind property node =
      x property.name >>= fun checks => pure (checks.foldl Property.addCheck property)) ∧
    ∀ name, Gives config (x name) (Check.IsFamily kind) := by
  have hfamily : ∀ {f : Property → Build Property} {low high : Nat}, (∃ x, Adds config kind low high f x) →
      ∃ x : String → Build (List Check),
        (∀ property, f property = x property.name >>= fun checks => pure (checks.foldl Property.addCheck property)) ∧
        ∀ name, Gives config (x name) (Check.IsFamily kind) :=
    fun ⟨x, h⟩ => ⟨x, h.eq, fun name => (h.gives name).imp fun _ hlies => hlies.family⟩
  have hnone : ∃ x, Adds config kind 0 0 pure x := ⟨_, adds_nothing⟩
  unfold addKindChecks
  cases kind with
  | string => exact hfamily exists_adds_addStringChecks
  | integer =>
    obtain ⟨x, h⟩ : ∃ x, Adds config .number 0 5 (addNumberChecks · node) x := exists_adds_addNumberChecks
    exact ⟨x, h.eq, fun name => (h.gives name).imp fun _ hlies => ⟨hlies.family.shape, hlies.family.ordered⟩⟩
  | number => exact hfamily exists_adds_addNumberChecks
  | array => exact hfamily exists_adds_addArrayChecks
  | null | boolean | object => exact hfamily hnone

/-! ## Drafts -/

/-- A required property that has these checks, each at its default priority. -/
structure Poses (property : Property) (checks : List Check) : Prop where
  required : property.required = true
  relaxed : property.relaxed = false
  toList : property.validators.toList = checks.map Check.toValidator

theorem Poses.unique (h : Poses property checks) (h' : Poses property others) : checks = others :=
  (List.map_inj_right fun _ _ heq => congrArg Validator.check heq).1 (h.toList.symm.trans h'.toList)

theorem Poses.addCheck {before after : List Check} {c : Check} (h : Poses property (before ++ after))
    (hbefore : ∀ d ∈ before, d.defaultPriority ≤ c.defaultPriority)
    (hafter : ∀ d ∈ after, c.defaultPriority < d.defaultPriority) :
    Poses (property.addCheck c) (before ++ c :: after) := by
  refine ⟨h.required, h.relaxed, ?_⟩
  rw [List.map_append, List.map_cons]
  refine Validators.toList_add_between (h.toList.trans List.map_append) ?_ ?_
  · exact List.forall_mem_map.2 hbefore
  · exact List.forall_mem_map.2 hafter

/-- What runs last is added behind. -/
theorem Poses.addLast {c : Check} (h : Poses property checks)
    (hbefore : ∀ d ∈ checks, d.defaultPriority ≤ c.defaultPriority) : Poses (property.addCheck c) (checks ++ [c]) :=
  .addCheck ((List.append_nil checks).symm ▸ h) hbefore fun _ hd => absurd hd List.not_mem_nil

theorem Poses.addDecorator (h : Poses property checks) (decorator : Decorator) :
    Poses (property.addDecorator decorator) checks := by
  unfold Property.addDecorator
  split
  · exact h
  · exact ⟨h.required, h.relaxed, h.toList⟩

/-- Checks of a family stand behind whatever was there. -/
theorem Poses.foldl : ∀ {checks others : List Check} {property : Property}, Poses property checks →
    (∀ c ∈ checks, c.defaultPriority ≤ 99) → (∀ c ∈ others, c.defaultPriority = 99) →
    Poses (others.foldl Property.addCheck property) (checks ++ others)
  | checks, [], _, h, _, _ => (List.append_nil checks).symm ▸ h
  | checks, c :: rest, property, h, hbefore, hlast => by
    have hc := hlast c List.mem_cons_self
    have hadded : Poses (rest.foldl Property.addCheck (property.addCheck c)) (checks ++ [c] ++ rest) :=
      (h.addLast fun d hd => hc ▸ hbefore d hd).foldl ?_ fun d hd => hlast d (List.mem_cons_of_mem _ hd)
    · rw [List.append_assoc] at hadded
      exact hadded
    · intro d hd
      rcases List.mem_append.1 hd with hd | hd
      · exact hbefore d hd
      · exact List.mem_singleton.1 hd ▸ Nat.le_of_eq hc

/-- Where null does not settle any check, a required property is stamped already. -/
theorem Poses.inStep (h : Poses property (.required :: checks))
    (hregular : ∀ c ∈ checks, c.isRequired = false ∧ c.withNull false = c) (allowed : Bool) :
    property.InStep allowed := by
  refine ⟨checks.map Check.toValidator, ?_, List.forall_mem_map.2 fun c hc => ?_⟩
  · rw [h.toList, Property.presence, Property.needsPresence, h.required, h.relaxed]
    rfl
  · rw [Property.settlesNull, h.required, Bool.not_true, Bool.and_false, Bool.false_and, Bool.false_and]
    exact ⟨(hregular c hc).1, rfl, (hregular c hc).2⟩

theorem poses_newProperty (h : (newProperty name true).Runs config s property s') :
    s' = s ∧ property.name = name ∧ Poses property [] := by
  unfold newProperty at h
  split at h
  · obtain ⟨rfl, rfl⟩ := runs_pure.1 h
    exact ⟨rfl, rfl, rfl, rfl, rfl⟩
  · exact absurd h not_runs_refuse

/-- The draft of a required property of a kind, before the checks of its kind are added. -/
theorem runs_ofKind (hrequired : site.required = true) (h : (ofKind build site node kind).Runs config s property s') :
    ∃ draft, draft.name = site.name ∧ Poses draft [.required, .type [kind] false] ∧
      (addKindChecks build site.scope kind draft node).Runs config s property s' := by
  unfold ofKind presentProperty at h
  rw [hrequired, bind_assoc] at h
  obtain ⟨fresh, m, hnew, hrest⟩ := runs_bind.1 h
  obtain ⟨rfl, hname, hposes⟩ := poses_newProperty hnew
  rw [runs_pure_bind, runs_bind_of_iff fun _ _ => runs_allowsNull] at hrest
  simp only [Bool.not_true, Bool.and_false, Bool.false_and, if_true] at hrest
  have hpresent : Poses (fresh.addCheck .required) [.required] := hposes.addLast fun _ hd => absurd hd List.not_mem_nil
  have hlabelled : Poses { fresh.addCheck .required with label := some (labelOf kind) } [.required] :=
    ⟨hpresent.required, hpresent.relaxed, hpresent.toList⟩
  have htyped : Poses (Property.addCheck { fresh.addCheck .required with label := some (labelOf kind) }
      (.type [kind] false)) [.required, .type [kind] false] :=
    hlabelled.addLast fun d hd => List.mem_singleton.1 hd ▸ (by decide : 1 ≤ 2)
  refine ⟨_, ?_, htyped, hrest⟩
  exact hname

/-- Checks of a family stand behind those of presence and type. -/
theorem Poses.addFamily {other : Kind} (h : Poses property [.required, .type [kind] false])
    (hfamily : Check.IsFamily other checks) :
    Poses (checks.foldl Property.addCheck property) (.required :: .type [kind] false :: checks) := by
  refine h.foldl (fun c hc => ?_) fun c hc => Check.defaultPriority_of_shape (hfamily.shape c hc)
  rcases List.mem_cons.1 hc with rfl | hc
  · exact (by decide : 1 ≤ 99)
  · rw [List.mem_singleton.1 hc]
    exact (by decide : 2 ≤ 99)

/-- **A required property of a kind** has its presence and type checks, and then those of the family of its kind. -/
theorem poses_ofKind (hrequired : site.required = true) (h : (ofKind build site node kind).Runs config s property s') :
    ∃ family, Check.IsFamily kind family ∧ Poses property (.required :: .type [kind] false :: family) := by
  obtain ⟨draft, _, hposes, hadd⟩ := runs_ofKind hrequired h
  obtain ⟨x, heq, hgives⟩ : ∃ x : String → Build (List Check),
      (∀ property, addKindChecks build site.scope kind property node =
        x property.name >>= fun checks => pure (checks.foldl Property.addCheck property)) ∧
      ∀ name, Gives config (x name) (Check.IsFamily kind) := exists_adds_addKindChecks kind
  rw [heq] at hadd
  obtain ⟨family, m, hx, hreturn⟩ := runs_bind.1 hadd
  obtain ⟨rfl, -⟩ := runs_pure.1 hreturn
  have hfamily := ((hgives draft.name s trivial).1 family m hx).2
  exact ⟨family, hfamily, hposes.addFamily hfamily⟩

/-- **Integers have the family of numbers**, wherever the properties are built. -/
theorem family_of_number {other : Kind} {t t' : Session} {build' : Builder} {site' : Site} {property' : Property}
    (hrequired : site.required = true) (hrequired' : site'.required = true) (hname : site'.name = site.name)
    (hshape : kind.shape = .number) (hshape' : other.shape = .number)
    (h : (ofKind build site node kind).Runs config s property s')
    (h' : (ofKind build' site' node other).Runs config t property' t')
    (hposes : Poses property (.required :: .type [kind] false :: checks))
    (hposes' : Poses property' (.required :: .type [other] false :: others)) : checks = others := by
  obtain ⟨x, hx⟩ : ∃ x, Adds config .number 0 5 (addNumberChecks · node) x := exists_adds_addNumberChecks
  -- Any draft of this name would get the checks.
  have hfamily : ∀ {kind : Kind} {build : Builder} {site : Site} {property : Property} {checks : List Check}
      {s s' : Session}, site.required = true → kind.shape = .number →
      (ofKind build site node kind).Runs config s property s' →
      Poses property (.required :: .type [kind] false :: checks) → Check.IsFamily .number checks ∧
        (x site.name).Runs config s checks s' := by
    intro kind build site property checks s s' hrequired hshape h hposes
    obtain ⟨draft, hname, hdraft, hadd⟩ := runs_ofKind hrequired h
    have hnumber : addKindChecks build site.scope kind draft node = addNumberChecks draft node := by
      cases kind <;> first | rfl | cases hshape
    rw [hnumber, hx.eq, hname] at hadd
    obtain ⟨found, m, hfound, hreturn⟩ := runs_bind.1 hadd
    obtain ⟨rfl, rfl⟩ := runs_pure.1 hreturn
    have hlies := ((hx.gives site.name s trivial).1 found s' hfound).2
    obtain ⟨-, heq⟩ := List.cons.inj ((hdraft.addFamily hlies.family).unique hposes)
    obtain ⟨-, rfl⟩ := List.cons.inj heq
    exact ⟨hlies.family, hfound⟩
  obtain ⟨hnumbers, hfound⟩ := hfamily hrequired hshape h hposes
  obtain ⟨hnumbers', hfound'⟩ := hfamily hrequired' hshape' h' hposes'
  rw [hname] at hfound'
  let blank : Property := { name := site.name, identifier := "", required := true }
  have hrun : (addNumberChecks blank node).Runs config s (checks.foldl Property.addCheck blank) s' := by
    rw [hx.eq]
    exact runs_bind.2 ⟨checks, s', hfound, runs_pure.2 ⟨rfl, rfl⟩⟩
  have hrun' : (addNumberChecks blank node).Runs config t (others.foldl Property.addCheck blank) t' := by
    rw [hx.eq]
    exact runs_bind.2 ⟨others, t', hfound', runs_pure.2 ⟨rfl, rfl⟩⟩
  have hblank : ∀ {checks : List Check}, Check.IsFamily .number checks →
      Poses (checks.foldl Property.addCheck blank) checks := fun hfamily =>
    Poses.foldl ⟨rfl, rfl, rfl⟩ (fun _ hc => absurd hc List.not_mem_nil) fun c hc =>
      Check.defaultPriority_of_shape (hfamily.shape c hc)
  have heq := detached_addNumberChecks.unique hrun hrun'
  exact (hblank hnumbers).unique (heq ▸ hblank hnumbers')

end Building
end SchemaTypes

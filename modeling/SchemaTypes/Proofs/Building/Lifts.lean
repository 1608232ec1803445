import SchemaTypes.Proofs.Building.Origins
/-!
# What is lifted stays apart

A property is marked as lifted when it is lifted, and never otherwise: drafts are not, and neither is what they are
copied to or filled in from (`Session.Marked`).  So no deed changes the name of a property or whether it has been
lifted, a type's list grows at its end only, and a branch that feeds its type goes on doing so (`Session.Feeds.deeds`).
-/
namespace SchemaTypes.Session

open Building

variable {config : Config} {traced : Prop} {exempt : PropertyId → Prop} {allowed : Bool} {s m s' : Session}
  {id definition : PropertyId} {key : DefinitionKey} {waiting : List PropertyId} {type nested : TypeId} {branch : Branch}

/-- What is generated for a finished type lasts. -/
theorem Collapsed.lasts_canonical (h : s.Collapsed) (hsignature : (s.graph.entry type).signature ≠ none) :
    s.Lasts (s.graph.canonical type) := by
  have hs := h.toRegistered
  rw [hs.canonical_eq]
  cases hredirect : (s.graph.entry type).redirect with
  | none => exact ⟨hsignature, hredirect⟩
  | some target =>
    obtain ⟨hstands, text, _, htext⟩ := hs.redirects type target hredirect
    exact ⟨(fun hnone => nomatch hnone.symm.trans htext), hstands⟩

/-- Lifted properties are told apart from all others.  What is held is finished, unless it is the type of a definition
that leads back to itself, and only such definitions are waited for. -/
structure Marked (s : Session) : Prop where
  held : ∀ id type, (s.graph.property id).nested = some type →
    s.graph.HasType type ∧ ((s.graph.entry type).signature ≠ none ∨ s.Recurring type)
  listed : ∀ type, ∀ id ∈ (s.graph.entry type).properties, s.graph.HasProperty id
  built : ∀ key definition, s.definition? key = some (.built definition) → s.Own definition
  waits : ∀ key id, s.Waits key id → s.Own id ∧ Leads s.documents key key
  unchecked : ∀ id, (s.graph.property id).isLifted = true → (s.graph.property id).Unchecked

/-- A definition that comes to be in progress is not built, and nothing waits for it yet. -/
theorem Marked.progress (h : s.Marked) (hnot : ∀ type, ¬ s.InProgress key type) (found : Option TypeId) :
    (s.setDefinition key (.inProgress found [])).Marked := by
  refine ⟨fun id type hnested => ?_, h.listed, fun other definition hbuilt => ?_, ?_, h.unchecked⟩
  · obtain ⟨hthere, hheld⟩ := h.held id type hnested
    refine ⟨hthere, hheld.imp_right ?_⟩
    rintro ⟨other, hother, hleads⟩
    obtain ⟨waiting, hpending⟩ := hother
    refine ⟨other, ⟨waiting, ?_⟩, hleads⟩
    rw [definition?_setDefinition, if_neg fun heq => hnot _ ⟨waiting, heq ▸ hpending⟩]
    exact hpending
  · rw [definition?_setDefinition] at hbuilt
    split at hbuilt
    · cases hbuilt
    · obtain ⟨hthere, hown⟩ := h.built other definition hbuilt
      exact ⟨hthere, hown⟩
  · rintro other id ⟨type, waiting, hpending, hmem⟩
    rw [definition?_setDefinition] at hpending
    split at hpending
    · cases hpending
      cases hmem
    · obtain ⟨⟨hthere, hown⟩, hleads⟩ := h.waits other id ⟨type, waiting, hpending, hmem⟩
      exact ⟨⟨hthere, hown⟩, hleads⟩

/-! ## Properties -/

/-- Filling in from a definition that has not been lifted marks nothing. -/
theorem foldl_bindOne_own : ∀ {waiting : List PropertyId} {s : Session},
    (s.graph.property definition).isLifted = false → ∀ id,
    (waiting.foldl (bindOne allowed definition) s).graph.property id = s.graph.property id ∨
      id ∈ waiting ∧ ((waiting.foldl (bindOne allowed definition) s).graph.property id).mark =
        ((s.graph.property id).name, false)
  | [], _, _, _ => Or.inl rfl
  | first :: rest, s, hown, id => by
    -- What filling the first one in has done to any property.
    have hfirst : ∀ other, (bindOne allowed definition s first).graph.property other = s.graph.property other ∨
        other = first ∧ ((bindOne allowed definition s first).graph.property other).mark =
          ((s.graph.property other).name, false) := by
      intro other
      rw [property_bindOne]
      split
      · rename_i h
        exact Or.inr ⟨by cases other; cases first; exact congrArg _ h.1, Prod.ext rfl hown⟩
      · exact Or.inl rfl
    have hlater : ((bindOne allowed definition s first).graph.property definition).isLifted = false := by
      rcases hfirst definition with hsame | ⟨_, hmark⟩
      · rw [hsame]
        exact hown
      · exact congrArg Prod.snd hmark
    rw [List.foldl_cons]
    rcases foldl_bindOne_own hlater id with hsame | ⟨hmem, hmark⟩
    · rw [hsame]
      refine (hfirst id).imp_right ?_
      rintro ⟨rfl, hmark⟩
      exact ⟨List.mem_cons_self, hmark⟩
    · refine Or.inr ⟨List.mem_cons_of_mem _ hmem, hmark.trans (congrArg (·, false) ?_)⟩
      rcases hfirst id with hsame | ⟨_, hmark⟩
      · rw [hsame]
      · exact congrArg Prod.fst hmark

theorem mark_completed (hown : (s.graph.property definition).isLifted = false) (id : PropertyId) :
    ((s.completed allowed key definition waiting).graph.property id).mark = (s.graph.property id).mark ∨
      id ∈ waiting ∧ ((s.completed allowed key definition waiting).graph.property id).mark =
        ((s.graph.property id).name, false) :=
  (foldl_bindOne_own (s := s.setDefinition key (.built definition)) hown id).imp_left (congrArg Property.mark)

/-- What a deed does to a property: its mark stays, or it is new, and unchecked if it has been lifted. -/
theorem Deed.lifting (h : Deed config traced s s') (htraced : traced) (hs : s.Marked) (id : PropertyId) :
    ((s'.graph.property id).mark = (s.graph.property id).mark ∧
        ((s.graph.property id).isLifted = true → (s.graph.property id).Unchecked →
          (s'.graph.property id).Unchecked)) ∨
      ¬ s.graph.HasProperty id ∧ ((s'.graph.property id).isLifted = true → (s'.graph.property id).Unchecked) := by
  have hown : ∀ {property : Property}, property.isLifted = false → (property.isLifted = true → property.Unchecked) :=
    fun hown hlifted => nomatch hown.symm.trans hlifted
  cases h.fate id with
  | kept hsame => exact Or.inl ⟨congrArg Property.mark hsame, fun _ hunchecked => hsame.symm ▸ hunchecked⟩
  | added hnot hnew =>
    refine Or.inr ⟨hnot, ?_⟩
    cases hnew with
    | drafted hfits => exact hown hfits.own
    | copied _ _ _ hbuilt hcopied => exact hcopied ▸ hown (hs.built _ _ hbuilt).isLifted
    | lifted source combinator hlifted => exact fun _ => hlifted ▸ unchecked_lifted _ combinator
    | recurring _ hnone => exact hown hnone
  | relaxed _ hrelaxed =>
    refine Or.inl ⟨(congrArg Property.mark hrelaxed).trans rfl, fun _ hunchecked => hrelaxed ▸ ⟨rfl, ?_⟩⟩
    unfold Property.relax
    rw [Validators.toList_removeRequired, hunchecked.validators]
    rfl
  | captioned text hcaptioned =>
    exact Or.inl ⟨(congrArg Property.mark hcaptioned).trans rfl, fun _ hunchecked =>
      hcaptioned ▸ ⟨hunchecked.required, hunchecked.validators⟩⟩
  | @filled key _ waiting definition hpending hmem hdefinition hfilled =>
    have hid := (hs.waits key id ⟨_, _, hpending, hmem⟩).1.isLifted
    refine Or.inl ⟨?_, fun hlifted => nomatch hid.symm.trans hlifted⟩
    rw [hfilled]
    rcases mark_completed (hdefinition htraced).isLifted id with hsame | ⟨_, hmark⟩
    · exact hsame
    · exact hmark.trans (Prod.ext rfl hid.symm)

/-- **No deed renames a property** or changes whether it has been lifted. -/
theorem Deed.mark (h : Deed config traced s s') (htraced : traced) (hs : s.Marked) (hid : s.graph.HasProperty id) :
    (s'.graph.property id).mark = (s.graph.property id).mark :=
  (h.lifting htraced hs id).elim And.left fun hnew => absurd hid hnew.1

theorem Own.deed (hid : s.Own id) (h : Deed config traced s s') (htraced : traced) (hs : s.Marked) : s'.Own id :=
  ⟨hid.hasProperty.grows h.precedes.recalls.grows,
    (congrArg Prod.snd (h.mark htraced hs hid.hasProperty)).trans hid.isLifted⟩

theorem own_addProperty (s : Session) {property : Property} (hown : property.isLifted = false) :
    (s.withGraph (s.graph.addProperty property).2).Own (s.graph.addProperty property).1 :=
  ⟨hasProperty_addProperty _ _, (congrArg Property.isLifted (Graph.property_addProperty _ _)).trans hown⟩

/-- A property goes on holding what it holds, unless it has waited. -/
theorem Deed.held (h : Deed config traced s s') (hs : s.Marked) (hid : s.graph.HasProperty id) :
    (s'.graph.property id).nested = (s.graph.property id).nested ∨ s.Lingers id := by
  cases h.fate id with
  | kept hsame => exact Or.inl (congrArg Property.nested hsame)
  | added hnew => exact absurd hid hnew
  | relaxed _ hrelaxed => exact Or.inl ((congrArg Property.nested hrelaxed).trans rfl)
  | captioned text hcaptioned => exact Or.inl ((congrArg Property.nested hcaptioned).trans rfl)
  | filled hpending hmem =>
    have hwaits : s.Waits _ id := ⟨_, _, hpending, hmem⟩
    exact Or.inr ⟨_, hwaits, (hs.waits _ id hwaits).2⟩

/-! ## Lists and definitions -/

/-- What a type comes by in a deed. -/
inductive Gain (traced : Prop) (s : Session) (type : TypeId) (entry : ObjectType) : Prop
  | nothing : entry.properties = (s.graph.entry type).properties →
    entry.validators = (s.graph.entry type).validators → Gain traced s type entry
  | property {id : PropertyId} : (traced → s.graph.HasProperty id) →
    entry.properties = (s.graph.entry type).properties ++ [id] →
    entry.validators = (s.graph.entry type).validators → Gain traced s type entry
  | check {check : Check} : (traced → s.FedBy s.Returns type check) →
    entry.properties = (s.graph.entry type).properties →
    entry.validators = (s.graph.entry type).validators.addCheck check → Gain traced s type entry

/-- **A deed leaves a type's properties and checks alone**, or adds one of them behind the others. -/
theorem Deed.gain (h : Deed config traced s s') (type : TypeId) : Gain traced s type (s'.graph.entry type) := by
  have hmodify : ∀ (other : TypeId) (f : ObjectType → ObjectType),
      (type = other → Gain traced s type (f (s.graph.entry type))) →
        Gain traced s type ((s.graph.modifyType other f).entry type) := by
    intro other f hf
    rw [entry_modifyType_eq]
    split
    · rename_i heq
      exact hf (by cases type; cases other; exact congrArg _ heq.1)
    · exact .nothing rfl rfl
  cases h with
  | reserve namespaceName className isRoot =>
    change Gain traced s type ((s.graph.reserve namespaceName className isRoot).2.entry type)
    rw [entry_reserve_eq]
    split
    · rename_i heq
      have hnone := entry_of_le (Nat.le_of_eq heq.symm)
      exact .nothing (congrArg ObjectType.properties hnone).symm (congrArg ObjectType.validators hnone).symm
    · exact .nothing rfl rfl
  | describe => exact hmodify _ _ fun _ => .nothing rfl rfl
  | enlist _ hproperty => exact hmodify _ _ fun _ => .property hproperty rfl rfl
  | demand _ hfed => exact hmodify _ _ fun heq => .check (heq ▸ hfed) rfl rfl
  | finish _ hrun =>
    obtain ⟨_, _, _, _, hgraph⟩ := runs_finish hrun
    rw [hgraph]
    exact hmodify _ _ fun _ => .nothing rfl rfl
  | @complete key _ waiting definition =>
    have hsame := entry_completed config.settings.implicitNull key definition waiting s type
    exact .nothing (congrArg ObjectType.properties hsame) (congrArg ObjectType.validators hsame)
  | _ => exact .nothing rfl rfl

/-- What is listed stays listed, and what comes to it is there. -/
theorem Deed.enlists (h : Deed config traced s s') (htraced : traced) (type : TypeId) : ∃ added,
    (s'.graph.entry type).properties = (s.graph.entry type).properties ++ added ∧
      ∀ id ∈ added, s.graph.HasProperty id := by
  have hsame : (s'.graph.entry type).properties = (s.graph.entry type).properties → ∃ added,
      (s'.graph.entry type).properties = (s.graph.entry type).properties ++ added ∧
        ∀ id ∈ added, s.graph.HasProperty id :=
    fun hlist => ⟨[], hlist.trans (List.append_nil _).symm, fun _ hid => absurd hid List.not_mem_nil⟩
  cases h.gain type with
  | nothing hlist => exact hsame hlist
  | property hid hlist => exact ⟨_, hlist, fun id hmem => List.mem_singleton.1 hmem ▸ hid htraced⟩
  | check _ hlist => exact hsame hlist

/-- What a type demands it has demanded before, unless it has just come to demand it. -/
theorem Deed.demands (h : Deed config traced s s') (htraced : traced) (type : TypeId) :
    ∀ v ∈ (s'.graph.entry type).validators.toList,
      v ∈ (s.graph.entry type).validators.toList ∨ s.FedBy s.Returns type v.check := by
  intro v hv
  cases h.gain type with
  | nothing _ hvalidators => exact Or.inl (hvalidators ▸ hv)
  | property _ _ hvalidators => exact Or.inl (hvalidators ▸ hv)
  | check hfed _ hvalidators =>
    rw [hvalidators] at hv
    rcases Validators.mem_toList_add.1 hv with rfl | hv
    · exact Or.inr (hfed htraced)
    · exact Or.inl hv

/-- What has completed a definition has not been lifted. -/
theorem Deed.built (h : Deed config traced s s') (htraced : traced) (hs : s.Marked)
    (hbuilt : s'.definition? key = some (.built definition)) : s.Own definition := by
  cases h with
  | finish _ hrun =>
    obtain ⟨_, _, _, hdefinitions, _⟩ := runs_finish hrun
    unfold definition? at hbuilt
    rw [hdefinitions] at hbuilt
    exact hs.built key definition hbuilt
  | begin =>
    rw [definition?_setDefinition] at hbuilt
    split at hbuilt
    · cases hbuilt
    · exact hs.built key definition hbuilt
  | wait =>
    rw [definition?_awaiting] at hbuilt
    split at hbuilt
    · cases hbuilt
    · exact hs.built key definition hbuilt
  | complete _ _ _ _ hown =>
    rw [definition?_completed] at hbuilt
    split at hbuilt
    · cases hbuilt
      exact hown htraced
    · exact hs.built key definition hbuilt
  | _ => exact hs.built key definition hbuilt

theorem Deed.waits (h : Deed config traced s s') (htraced : traced) (hs : s.Marked) (hwaits : s'.Waits key id) :
    (s.Own id ∨ s'.Own id) ∧ Leads s.documents key key := by
  have hsame : s.Waits key id → (s.Own id ∨ s'.Own id) ∧ Leads s.documents key key := fun hwaits =>
    (hs.waits key id hwaits).imp_left Or.inl
  cases h with
  | finish _ hrun =>
    obtain ⟨_, _, _, hdefinitions, _⟩ := runs_finish hrun
    unfold Waits definition? at hwaits
    rw [hdefinitions] at hwaits
    exact hsame hwaits
  | begin hnone => exact hsame ((waits_setDefinition_begin hnone _ key id).1 hwaits)
  | wait hpending hleads hflat =>
    rcases (waits_awaiting _ hpending key id).1 hwaits with hwaits | ⟨rfl, rfl⟩
    · exact hsame hwaits
    · have hown := own_addProperty s hflat.own
      exact ⟨Or.inr ⟨hown.hasProperty, hown.isLifted⟩, hleads htraced⟩
  | complete => exact hsame ((waits_completed key id).1 hwaits).2
  | _ => exact hsame hwaits

/-! ## What stays -/

/-- What a recurring type is the type of stays in progress until it is finished. -/
theorem Deed.recurring (h : Deed config traced s s') (hrecurring : s.Recurring type) :
    (s.graph.entry type).signature ≠ none ∨ s'.Recurring type := by
  obtain ⟨key, ⟨waiting, hpending⟩, hleads⟩ := hrecurring
  have hkept : s'.definition? key = s.definition? key → s'.Recurring type := fun hsame =>
    ⟨key, ⟨waiting, hsame.trans hpending⟩, h.documents.symm ▸ hleads⟩
  cases h.turn key with
  | same hsame => exact Or.inr (hkept hsame)
  | begun hnone => exact absurd (hnone.symm.trans hpending) nofun
  | awaited hother => exact absurd (hother.symm.trans hpending) nofun
  | completed hother _ _ hembodies =>
    cases hother.symm.trans hpending
    exact Or.inl (hembodies type rfl).signature

/-- **Every deed keeps lifted properties apart.** -/
theorem Deed.marked (h : Deed config traced s s') (htraced : traced) (hs : s.Marked) : s'.Marked where
  held id type hnested := by
    have hgrows := h.precedes.recalls.grows
    -- A type that has been finished is finished still.
    have hkept : s.graph.HasType type ∧ ((s.graph.entry type).signature ≠ none ∨ s.Recurring type) →
        s'.graph.HasType type ∧ ((s'.graph.entry type).signature ≠ none ∨ s'.Recurring type) := fun htype =>
      ⟨htype.1.grows hgrows, (htype.2.elim Or.inl h.recurring).imp_left fun hsignature =>
        (h.entry hsignature).symm ▸ hsignature⟩
    refine hkept ?_
    cases h.property id with
    | taken source hpasses => exact hs.held source type (hpasses.nested ▸ hnested)
    | drafted hfits => exact ⟨(hfits.lasts type hnested).hasType, Or.inl (hfits.lasts type hnested).signature⟩
    | @recurring key _ _ hstands =>
      cases hstands.nested.symm.trans hnested
      obtain ⟨hu, hrecurs⟩ := hstands.recurs htraced
      exact ⟨hu.hasType, Or.inr ⟨key, hstands.inProgress, hrecurs.2⟩⟩
  listed type id hid := by
    obtain ⟨added, hadded, hthere⟩ := h.enlists htraced type
    refine Graph.HasProperty.grows ?_ h.precedes.recalls.grows
    rw [hadded] at hid
    exact (List.mem_append.1 hid).elim (hs.listed type id) (hthere id)
  built _ _ hbuilt := (h.built htraced hs hbuilt).deed h htraced hs
  waits key id hwaits := by
    obtain ⟨hown, hleads⟩ := h.waits htraced hs hwaits
    exact ⟨hown.elim (fun hown => hown.deed h htraced hs) fun hown => hown, h.documents.symm ▸ hleads⟩
  unchecked id hlifted := by
    rcases h.lifting htraced hs id with ⟨hmark, hkept⟩ | ⟨_, hnew⟩
    · have hbefore := (congrArg Prod.snd hmark).symm.trans hlifted
      exact hkept hbefore (hs.unchecked id hbefore)
    · exact hnew hlifted

theorem Deeds.marked (h : Deeds config traced s s') (htraced : traced) (hs : s.Marked) : s'.Marked :=
  h.keeps (P := Marked) (fun _ _ hdeed hm => hdeed.marked htraced hm) hs

theorem Deeds.mark (h : Deeds config traced s s') (htraced : traced) (hs : s.Marked) (hid : s.graph.HasProperty id) :
    (s'.graph.property id).mark = (s.graph.property id).mark := by
  induction h with
  | refl => rfl
  | tail hfirst hlast ih =>
    have hthere := hid.grows (Deeds.precedes hfirst).recalls.grows
    exact (hlast.mark htraced (Deeds.marked hfirst htraced hs) hthere).trans ih

theorem Own.deeds (hid : s.Own id) (h : Deeds config traced s s') (htraced : traced) (hs : s.Marked) : s'.Own id :=
  (h.keeps (P := fun m => m.Marked ∧ m.Own id)
    (fun _ _ hdeed hm => ⟨hdeed.marked htraced hm.1, hm.2.deed hdeed htraced hm.1⟩) ⟨hs, hid⟩).2

/-- A type's list grows at its end. -/
theorem Deed.marks (h : Deed config traced s s') (htraced : traced) (hs : s.Marked) (type : TypeId) :
    s.graph.marks type <+: s'.graph.marks type := by
  obtain ⟨added, hadded, _⟩ := h.enlists htraced type
  have hsame : (s.graph.entry type).properties.map (fun id => (s'.graph.property id).mark) = s.graph.marks type :=
    List.map_congr_left fun id hid => h.mark htraced hs (hs.listed type id hid)
  refine ⟨added.map fun id => (s'.graph.property id).mark, ?_⟩
  rw [← hsame, ← List.map_append, ← hadded]
  rfl

theorem Deeds.marks (h : Deeds config traced s s') (htraced : traced) (hs : s.Marked) (type : TypeId) :
    s.graph.marks type <+: s'.graph.marks type :=
  (h.keeps (P := fun m => m.Marked ∧ s.graph.marks type <+: m.graph.marks type)
    (fun _ _ hdeed hm => ⟨hdeed.marked htraced hm.1, hm.2.trans (hdeed.marks htraced hm.1 type)⟩)
    ⟨hs, List.prefix_rfl⟩).2

/-- A finished type's list stays as it is. -/
theorem Deed.marks_eq (h : Deed config traced s s') (htraced : traced) (hs : s.Marked)
    (hfinished : (s.graph.entry type).signature ≠ none) : s'.graph.marks type = s.graph.marks type := by
  unfold Graph.marks
  rw [h.entry hfinished]
  exact List.map_congr_left fun id hid => h.mark htraced hs (hs.listed type id hid)

theorem Deeds.marks_eq (h : Deeds config traced s s') (htraced : traced) (hs : s.Marked)
    (hfinished : (s.graph.entry type).signature ≠ none) : s'.graph.marks type = s.graph.marks type := by
  induction h with
  | refl => rfl
  | tail hfirst hlast ih =>
    have hkept := (Deeds.entry hfirst hfinished).symm ▸ hfinished
    exact (hlast.marks_eq htraced (Deeds.marked hfirst htraced hs) hkept).trans ih

theorem Lingers.of_deeds (h : Deeds config traced s s') (hid : s.graph.HasProperty id) (hlingers : s'.Lingers id) :
    s.Lingers id := by
  obtain ⟨key, hwaits, hleads⟩ := hlingers
  exact ⟨key, h.waits_there hid hwaits, h.documents ▸ hleads⟩

theorem Deeds.held (h : Deeds config traced s s') (htraced : traced) (hs : s.Marked) (hid : s.graph.HasProperty id) :
    (s'.graph.property id).nested = (s.graph.property id).nested ∨ s.Lingers id := by
  induction h with
  | refl => exact Or.inl rfl
  | tail hfirst hlast ih =>
    have hthere := hid.grows (Deeds.precedes hfirst).recalls.grows
    rcases hlast.held (Deeds.marked hfirst htraced hs) hthere with hsame | hlingers
    · exact ih.imp_left hsame.trans
    · exact Or.inr (.of_deeds hfirst hid hlingers)

/-! ## Branches -/

theorem Feeds.imp {exempt' : PropertyId → Prop} (h : s.Feeds exempt type branch)
    (hexempt : exempt branch.property → exempt' branch.property) : s.Feeds exempt' type branch :=
  ⟨h.hasProperty, h.lifted, fun nested hnested => (h.covers nested hnested).imp_right hexempt⟩

/-- **A branch that feeds its type goes on doing so.** -/
theorem Feeds.deed (hfeeds : s.Feeds exempt type branch) (h : Deed config traced s s') (htraced : traced)
    (hs : s.Marked) (hcollapsed : s.Collapsed) (hexempt : s.Lingers branch.property → exempt branch.property) :
    s'.Feeds exempt type branch := by
  have htype := h.marks htraced hs type
  refine ⟨hfeeds.hasProperty.grows h.precedes.recalls.grows, fun name hname => ?_, fun nested hnested => ?_⟩
  · obtain ⟨hmem, hnot⟩ := hfeeds.lifted name hname
    exact ⟨Graph.mem_names_grow htype hmem, (Graph.declares_grow htype hmem).trans hnot⟩
  · rcases h.held hs hfeeds.hasProperty with hheld | hlingers
    · refine (hfeeds.covers nested (hheld ▸ hnested)).imp_left ?_
      rintro ⟨hsignature, hcovers⟩
      have hlasts := hcollapsed.lasts_canonical hsignature
      refine ⟨(h.entry hsignature).symm ▸ hsignature, ?_⟩
      rw [Deeds.canonical (.single h) hcollapsed hsignature]
      exact hcovers.grow htype (h.marks_eq htraced hs hlasts.signature)
    · exact Or.inr (hexempt hlingers)

theorem Feeds.deeds (hfeeds : s.Feeds exempt type branch) (h : Deeds config traced s s') (htraced : traced)
    (hs : s.Marked) (hcollapsed : s.Collapsed) (hexempt : s.Lingers branch.property → exempt branch.property) :
    s'.Feeds exempt type branch := by
  induction h with
  | refl => exact hfeeds
  | tail hfirst hlast ih =>
    exact ih.deed hlast htraced (Deeds.marked hfirst htraced hs) ((Deeds.precedes hfirst).collapsed hcollapsed)
      fun hlingers => hexempt (.of_deeds hfirst hfeeds.hasProperty hlingers)

end SchemaTypes.Session

import SchemaTypes.Proofs.Building.Calls
import SchemaTypes.Proofs.Building.Confinement
import SchemaTypes.Proofs.Building.Duplicates
/-!
# Redirects, registry and notices

What finishing a type does shows in three places: the registry of signatures, the redirects, and the notices.  They
tell the same story after any calls, failed ones included (`Session.Collapsed`), since each write keeps them so:
finishing is the only one that touches them, and the type it touches has not been finished before.

Nothing here depends on the order of ids.  A type may be redirected to one that was reserved later but finished
earlier; a redirect still leads to its end in one step, for what is registered is never redirected itself.
-/
namespace SchemaTypes

namespace Graph

/-- The notice that a redirected type calls for. -/
def redirectNotice? (graph : Graph) (id : TypeId) : Option Notice :=
  (graph.entry id).redirect.map fun target =>
    .typeRedirected (graph.entry id).name.qualified (graph.entry target).name.qualified

/-- One notice for each redirected type, in creation order. -/
def redirectNotices (graph : Graph) : List Notice := graph.typeIds.filterMap graph.redirectNotice?

theorem mem_typeIds {graph : Graph} {id : TypeId} : id ∈ graph.typeIds ↔ graph.HasType id := by
  unfold typeIds HasType
  rw [List.mem_map]
  constructor
  · rintro ⟨index, hindex, rfl⟩
    exact List.mem_range.1 hindex
  · exact fun hlt => ⟨id.index, List.mem_range.2 hlt, rfl⟩

theorem nodup_typeIds (graph : Graph) : graph.typeIds.Nodup :=
  List.Pairwise.map _ (fun _ _ hne heq => hne (TypeId.mk.inj heq)) List.nodup_range

theorem redirectNotice?_congr {graph later : Graph} {id : TypeId}
    (hredirect : (later.entry id).redirect = (graph.entry id).redirect)
    (hname : ∀ other, (later.entry other).name = (graph.entry other).name) :
    later.redirectNotice? id = graph.redirectNotice? id := by
  unfold redirectNotice?
  rw [hredirect, hname]
  refine Option.map_congr fun target _ => ?_
  rw [hname]

end Graph

/-- Only one element of a list comes to have an image. -/
theorem filterMap_perm_of_one {α β : Type} {f g : α → Option β} {a : α} {b : β} (hf : f a = none) (hg : g a = some b) :
    ∀ {l : List α}, l.Nodup → a ∈ l → (∀ x ∈ l, x ≠ a → g x = f x) → (l.filterMap g).Perm (l.filterMap f ++ [b])
  | [], _, hmem, _ => absurd hmem List.not_mem_nil
  | x :: l, hnodup, hmem, hsame => by
    obtain ⟨hx, hnodup⟩ := List.nodup_cons.1 hnodup
    by_cases heq : x = a
    · subst heq
      have hrest : l.filterMap g = l.filterMap f := List.filterMap_congr fun y hy =>
        hsame y (List.mem_cons_of_mem _ hy) fun heq => hx (heq ▸ hy)
      rw [List.filterMap_cons_some hg, List.filterMap_cons_none hf, hrest]
      exact (List.perm_append_singleton b _).symm
    · have ih := filterMap_perm_of_one hf hg hnodup ((List.mem_cons.1 hmem).resolve_left (Ne.symm heq)) fun y hy =>
        hsame y (List.mem_cons_of_mem _ hy)
      have hhead := hsame x List.mem_cons_self heq
      cases hfx : f x with
      | none =>
        rw [List.filterMap_cons_none hfx, List.filterMap_cons_none (hhead.trans hfx)]
        exact ih
      | some y =>
        rw [List.filterMap_cons_some hfx, List.filterMap_cons_some (hhead.trans hfx)]
        exact ih.cons y

namespace Session

/-- The notices about redirects. -/
def redirectNotices (session : Session) : List Notice := session.notices.filter (!·.isWarning)

/-- Registry, redirects and notices tell the same: a finished type that is no root and stands for itself is the one
known under its signature, and there is a notice for each redirect. -/
structure Collapsed (session : Session) : Prop extends Registered session where
  roots : ∀ id, (session.graph.entry id).isRoot = true → (session.graph.entry id).redirect = none
  known : ∀ id text, (session.graph.entry id).signature = some text → (session.graph.entry id).isRoot = false →
    (session.graph.entry id).redirect = none → session.signatures.lookup text = some id
  reported : session.redirectNotices.Perm session.graph.redirectNotices

/-- A type with its signature recorded. -/
abbrev signing (graph : Graph) (id : TypeId) (text : String) : Graph :=
  graph.modifyType id fun entry => { entry with signature := some text }

/-- A duplicate with its signature recorded. -/
abbrev redirecting (graph : Graph) (id : TypeId) (text : String) (target : TypeId) : Graph :=
  graph.modifyType id fun entry => { entry with signature := some text, redirect := some target }

/-- What finishing a type under a signature leaves: the type to refer to from now on, and the session. -/
inductive Concludes (s : Session) (id : TypeId) (text : String) : TypeId → Session → Prop
  | kept {existing : TypeId} : s.signatures.lookup text = some existing →
    (s.graph.entry id).isRoot = true ∨ s.graph.canonical existing = id →
    Concludes s id text id (s.withGraph (signing s.graph id text))
  | first : s.signatures.lookup text = none →
    Concludes s id text id
      { s with graph := signing s.graph id text, signatures := s.signatures ++ [(text, id)] }
  | duplicate {existing : TypeId} : s.signatures.lookup text = some existing →
    (s.graph.entry id).isRoot = false → s.graph.canonical existing ≠ id →
    Concludes s id text (s.graph.canonical existing) { s with
      graph := redirecting s.graph id text (s.graph.canonical existing)
      notices := s.notices ++ [.typeRedirected (s.graph.entry id).name.qualified
        (s.graph.entry (s.graph.canonical existing)).name.qualified] }

variable {origin s s' : Session} {id target : TypeId} {text : String}

theorem concludes_finish {config : Config} (h : (Building.finish id).Runs config s target s') :
    s.Concludes id (s.graph.signature id) target s' := by
  unfold Building.finish Build.modifyType Build.modifyGraph Build.notify at h
  simp only at h
  rw [Build.runs_get_bind, Build.runs_modify_bind] at h
  split at h
  · rename_i existing hexisting
    split at h
    · rename_i hkept
      obtain ⟨rfl, rfl⟩ := Build.runs_pure.1 h
      rw [Bool.or_eq_true, decide_eq_true_eq] at hkept
      exact .kept hexisting hkept
    · rename_i hnot
      rw [Build.runs_modify_bind, Build.runs_modify_bind] at h
      obtain ⟨rfl, rfl⟩ := Build.runs_pure.1 h
      rw [Bool.or_eq_true, not_or, decide_eq_true_eq, Bool.not_eq_true] at hnot
      rw [modifyType_modifyType]
      exact .duplicate hexisting hnot.1 hnot.2
  · rename_i hnone
    rw [Build.runs_modify_bind] at h
    obtain ⟨rfl, rfl⟩ := Build.runs_pure.1 h
    exact .first hnone

/-! ## What leaves types as they are -/

/-- What a type is known by, and whether it is a root. -/
structure SameStanding (a b : ObjectType) : Prop where
  name : a.name = b.name
  isRoot : a.isRoot = b.isRoot
  signature : a.signature = b.signature
  redirect : a.redirect = b.redirect

theorem Collapsed.congr (h : s.Collapsed) (hsignatures : s'.signatures = s.signatures)
    (hnotices : s'.redirectNotices = s.redirectNotices) (hsize : s'.graph.types.size = s.graph.types.size)
    (hentry : ∀ id, SameStanding (s'.graph.entry id) (s.graph.entry id)) : s'.Collapsed := by
  have hregistered := h.toRegistered.congr hsignatures fun id => ⟨(hentry id).signature, (hentry id).redirect⟩
  refine ⟨hregistered, fun id hroot => ?_, fun id text => ?_, ?_⟩
  · rw [(hentry id).redirect]
    exact h.roots id ((hentry id).isRoot.symm.trans hroot)
  · rw [hsignatures, (hentry id).signature, (hentry id).isRoot, (hentry id).redirect]
    exact h.known id text
  · have hids : s'.graph.typeIds = s.graph.typeIds := by
      unfold Graph.typeIds
      rw [hsize]
    have hnotice : s'.graph.redirectNotice? = s.graph.redirectNotice? := funext fun id =>
      Graph.redirectNotice?_congr (hentry id).redirect fun other => (hentry other).name
    unfold Graph.redirectNotices
    rw [hnotices, hids, hnotice]
    exact h.reported

theorem Registered.hasType_redirect (h : s.Registered) (hredirect : (s.graph.entry id).redirect = some target) :
    s.graph.HasType target := by
  obtain ⟨_, text, _, hsignature⟩ := h.redirects id target hredirect
  refine lt_of_signature fun hnone => ?_
  rw [hsignature] at hnone
  cases hnone

/-- Reserving leaves the entries that have been handed out alone, and nothing is known of the new one. -/
theorem Collapsed.reserve (h : s.Collapsed) (namespaceName className : String) (isRoot : Bool) :
    (s.withGraph (s.graph.reserve namespaceName className isRoot).2).Collapsed := by
  have hold : ∀ id, s.graph.HasType id →
      (s.graph.reserve namespaceName className isRoot).2.entry id = s.graph.entry id := fun id hid =>
    entry_reserve_of_lt _ _ _ _ hid
  have hnew : ∀ id, ¬ s.graph.HasType id →
      ((s.graph.reserve namespaceName className isRoot).2.entry id).signature = none ∧
        ((s.graph.reserve namespaceName className isRoot).2.entry id).redirect = none := by
    intro id hid
    rw [entry_reserve_eq]
    split
    · exact ⟨rfl, rfl⟩
    · rw [entry_of_le (Nat.le_of_not_lt hid)]
      exact ⟨rfl, rfl⟩
  have hempty : ∀ id, ¬ s.graph.HasType id → s.graph.entry id = default := fun id hid =>
    entry_of_le (Nat.le_of_not_lt hid)
  refine ⟨h.toRegistered.congr rfl fun id => ?_, fun id hroot => ?_, fun id text hsignature hroot => ?_, ?_⟩
  · by_cases hid : s.graph.HasType id
    · exact ⟨congrArg _ (hold id hid), congrArg _ (hold id hid)⟩
    · rw [hempty id hid]
      exact hnew id hid
  · by_cases hid : s.graph.HasType id
    · have hroot : (s.graph.entry id).isRoot = true := (congrArg _ (hold id hid)).symm.trans hroot
      exact (congrArg _ (hold id hid)).trans (h.roots id hroot)
    · exact (hnew id hid).2
  · by_cases hid : s.graph.HasType id
    · have hentry : (s.withGraph (s.graph.reserve namespaceName className isRoot).2).graph.entry id =
          s.graph.entry id := hold id hid
      rw [hentry] at hsignature hroot ⊢
      exact h.known id text hsignature hroot
    · exact absurd ((hnew id hid).1.symm.trans hsignature) nofun
  · have hids : (s.graph.reserve namespaceName className isRoot).2.typeIds =
        s.graph.typeIds ++ [⟨s.graph.types.size⟩] := by
      simp [Graph.typeIds, Graph.reserve, List.range_succ]
    have hlast : (s.graph.reserve namespaceName className isRoot).2.redirectNotice? ⟨s.graph.types.size⟩ = none := by
      unfold Graph.redirectNotice?
      rw [(hnew ⟨s.graph.types.size⟩ (Nat.lt_irrefl _)).2]
      rfl
    have hrest : s.graph.typeIds.filterMap (s.graph.reserve namespaceName className isRoot).2.redirectNotice? =
        s.graph.redirectNotices := by
      refine List.filterMap_congr fun id hid => ?_
      unfold Graph.redirectNotice?
      rw [hold id (Graph.mem_typeIds.1 hid)]
      refine Option.map_congr fun target htarget => ?_
      rw [hold target (h.hasType_redirect htarget)]
    change s.redirectNotices.Perm
      ((s.graph.reserve namespaceName className isRoot).2.typeIds.filterMap
        (s.graph.reserve namespaceName className isRoot).2.redirectNotice?)
    rw [hids, List.filterMap_append, hrest, List.filterMap_cons_none hlast, List.filterMap_nil, List.append_nil]
    exact h.reported

/-! ## Finishing -/

theorem entry_signing (graph : Graph) (id : TypeId) (text : String) (other : TypeId) :
    ((signing graph id text).entry other).name = (graph.entry other).name ∧
      ((signing graph id text).entry other).isRoot = (graph.entry other).isRoot ∧
      ((signing graph id text).entry other).redirect = (graph.entry other).redirect := by
  rw [entry_modifyType_eq]
  split
  · exact ⟨rfl, rfl, rfl⟩
  · exact ⟨rfl, rfl, rfl⟩

theorem typeIds_modifyType (graph : Graph) (id : TypeId) (f : ObjectType → ObjectType) :
    (graph.modifyType id f).typeIds = graph.typeIds := by
  unfold Graph.typeIds
  rw [size_modifyType]

theorem redirectNotices_signing (graph : Graph) (id : TypeId) (text : String) :
    (signing graph id text).redirectNotices = graph.redirectNotices := by
  unfold Graph.redirectNotices
  rw [typeIds_modifyType]
  exact List.filterMap_congr fun other _ => Graph.redirectNotice?_congr (entry_signing graph id text other).2.2
    fun x => (entry_signing graph id text x).1

theorem entry_modifyType_of_other (graph : Graph) (f : ObjectType → ObjectType) {other : TypeId} (hne : other ≠ id) :
    (graph.modifyType id f).entry other = graph.entry other := by
  refine entry_modifyType_of_ne _ f fun heq => hne ?_
  cases other
  cases id
  exact congrArg _ heq

/-- One type more is redirected, and one notice more is called for. -/
theorem redirectNotices_redirecting {graph : Graph} (hid : graph.HasType id)
    (hstands : (graph.entry id).redirect = none) :
    (redirecting graph id text target).redirectNotices.Perm
      (graph.redirectNotices ++
        [.typeRedirected (graph.entry id).name.qualified (graph.entry target).name.qualified]) := by
  have hname : ∀ other, ((redirecting graph id text target).entry other).name = (graph.entry other).name := by
    intro other
    rw [entry_modifyType_eq]
    split <;> rfl
  have hself : (redirecting graph id text target).redirectNotice? id =
      some (.typeRedirected (graph.entry id).name.qualified (graph.entry target).name.qualified) := by
    unfold Graph.redirectNotice?
    rw [hname, entry_modifyType _ _ hid]
    exact congrArg (fun name : TypeName => some (Notice.typeRedirected _ name.qualified)) (hname target)
  unfold Graph.redirectNotices
  rw [typeIds_modifyType]
  refine filterMap_perm_of_one ?_ hself (Graph.nodup_typeIds graph) (Graph.mem_typeIds.2 hid) fun other _ hne => ?_
  · unfold Graph.redirectNotice?
    rw [hstands]
    rfl
  · exact Graph.redirectNotice?_congr (congrArg _ (entry_modifyType_of_other _ _ hne)) hname

theorem Registered.unredirected (h : s.Registered) (hunfinished : s.Unfinished id) :
    (s.graph.entry id).redirect = none := by
  cases hredirect : (s.graph.entry id).redirect with
  | none => rfl
  | some other =>
    obtain ⟨_, text, hsignature, _⟩ := h.redirects id other hredirect
    exact absurd (hunfinished.signature.symm.trans hsignature) nofun

/-- A type whose signature is known already and that is not redirected is a root. -/
theorem Registered.isRoot_of_kept (h : s.Registered) (hunfinished : s.Unfinished id) {existing : TypeId}
    (hexisting : s.signatures.lookup text = some existing)
    (hkept : (s.graph.entry id).isRoot = true ∨ s.graph.canonical existing = id) :
    (s.graph.entry id).isRoot = true := by
  refine hkept.resolve_right fun heq => ?_
  obtain ⟨hsignature, hstands⟩ := h.signatures _ _ (Building.mem_of_lookup hexisting)
  rw [Graph.canonical, Graph.follow_eq_self hstands] at heq
  subst heq
  exact absurd (hunfinished.signature.symm.trans hsignature) nofun

/-- Finishing touches one type, which has not been finished before. -/
theorem Collapsed.conclude (h : s.Collapsed) (hunfinished : s.Unfinished id)
    (hconcludes : s.Concludes id text target s') (hregistered : s'.Registered) : s'.Collapsed := by
  have hsigned : ∀ other, ((signing s.graph id text).entry other).isRoot = true →
      ((signing s.graph id text).entry other).redirect = none := by
    intro other hroot
    rw [(entry_signing _ _ _ other).2.2]
    exact h.roots other ((entry_signing _ _ _ other).2.1.symm.trans hroot)
  have hother : ∀ f other, other ≠ id → (s.graph.modifyType id f).entry other = s.graph.entry other :=
    fun f other hne => entry_modifyType_of_other _ f hne
  cases hconcludes with
  | @kept existing hexisting hkept =>
    have hroot := h.isRoot_of_kept hunfinished hexisting hkept
    refine ⟨hregistered, hsigned, fun other text' hsignature hnot hstands => ?_, ?_⟩
    · have hne : other ≠ id := by
        rintro rfl
        exact absurd (hroot.symm.trans ((entry_signing _ _ _ _).2.1.symm.trans hnot)) nofun
      change ((signing s.graph id text).entry other).signature = some text' at hsignature
      change ((signing s.graph id text).entry other).isRoot = false at hnot
      change ((signing s.graph id text).entry other).redirect = none at hstands
      rw [hother _ other hne] at hsignature hnot hstands
      exact h.known other text' hsignature hnot hstands
    · exact (redirectNotices_signing s.graph id text).symm ▸ h.reported
  | first hnone =>
    refine ⟨hregistered, hsigned, fun other text' hsignature hnot hstands => ?_, ?_⟩
    · change ((signing s.graph id text).entry other).signature = some text' at hsignature
      change ((signing s.graph id text).entry other).isRoot = false at hnot
      change ((signing s.graph id text).entry other).redirect = none at hstands
      change (s.signatures ++ [(text, id)]).lookup text' = some other
      rw [List.lookup_append]
      by_cases heq : other = id
      · subst heq
        rw [entry_modifyType _ _ hunfinished.hasType] at hsignature
        cases hsignature
        rw [hnone]
        simp
      · rw [hother _ other heq] at hsignature hnot hstands
        rw [h.known other text' hsignature hnot hstands]
        rfl
    · exact (redirectNotices_signing s.graph id text).symm ▸ h.reported
  | @duplicate existing hexisting hnoroot hne =>
    refine ⟨hregistered, fun other hroot => ?_, fun other text' hsignature hnot hstands => ?_, ?_⟩
    · change ((redirecting s.graph id text _).entry other).isRoot = true at hroot
      change ((redirecting s.graph id text _).entry other).redirect = none
      by_cases heq : other = id
      · subst heq
        rw [entry_modifyType _ _ hunfinished.hasType] at hroot
        exact absurd (hnoroot.symm.trans hroot) nofun
      · rw [hother _ other heq] at hroot ⊢
        exact h.roots other hroot
    · change ((redirecting s.graph id text _).entry other).signature = some text' at hsignature
      change ((redirecting s.graph id text _).entry other).isRoot = false at hnot
      change ((redirecting s.graph id text _).entry other).redirect = none at hstands
      by_cases heq : other = id
      · subst heq
        rw [entry_modifyType _ _ hunfinished.hasType] at hstands
        cases hstands
      · rw [hother _ other heq] at hsignature hnot hstands
        exact h.known other text' hsignature hnot hstands
    · refine List.Perm.trans ?_ (redirectNotices_redirecting hunfinished.hasType
        (h.unredirected hunfinished)).symm
      unfold redirectNotices
      rw [List.filter_append]
      exact h.reported.append_right _

/-- **Every write keeps the three in accord.** -/
theorem Move.collapsed (hmove : Move origin s s') (h : s.Collapsed) : s'.Collapsed := by
  cases hmove with
  | notify hwarning =>
    refine h.congr rfl ?_ rfl fun _ => ⟨rfl, rfl, rfl, rfl⟩
    unfold redirectNotices
    simp [List.filter_append, hwarning]
  | reserve => exact h.reserve _ _ _
  | @change id f _ hf =>
    refine h.congr rfl rfl (size_modifyType _ _ _) fun other => ?_
    change SameStanding ((s.graph.modifyType id f).entry other) _
    rw [entry_modifyType_eq]
    split
    · exact ⟨hf.name _, hf.isRoot _, hf.signature _, hf.redirect _⟩
    · exact ⟨rfl, rfl, rfl, rfl⟩
  | finish _ hunfinished hrun =>
    exact h.conclude hunfinished (concludes_finish hrun)
      (h.toRegistered.finish hunfinished.hasType hunfinished.signature hrun)
  | _ => exact h.congr rfl rfl rfl fun _ => ⟨rfl, rfl, rfl, rfl⟩

theorem collapsed_initial : Collapsed {} := by
  refine ⟨⟨fun _ _ hmem => absurd hmem List.not_mem_nil, fun _ _ hsome => ?_⟩, fun _ _ => rfl,
    fun _ _ hsome => ?_, .refl _⟩
  · cases hsome
  · cases hsome

theorem Collapsed.perform (h : s.Collapsed) (config : Config) (call : Call) : (s.perform config call).Collapsed := by
  have hregister : ∀ source value, (s.register source value).Collapsed := fun source value =>
    h.congr rfl rfl rfl fun _ => ⟨rfl, rfl, rfl, rfl⟩
  cases call with
  | register source value => exact hregister source value
  | process source value =>
    exact (moves_process config s source value).keeps (P := Collapsed) (fun _ _ hmove hm => hmove.collapsed hm)
      (hregister source value)

theorem collapsed_performAll (config : Config) (calls : List Call) : (performAll config calls).Collapsed :=
  keeps_performs (fun _ call hs => hs.perform config call) calls {} collapsed_initial

/-! ## What that says of redirects -/

/-- Redirects are well founded, and they are what the signatures and the notices say. -/
structure RedirectsSettled (session : Session) : Prop where
  /-- Following redirects further than one step leads no further. -/
  oneStep : ∀ id n, session.graph.follow (n + 1) id = session.graph.canonical id
  stands : ∀ id, (session.graph.entry (session.graph.canonical id)).redirect = none
  idempotent : ∀ id, session.graph.canonical (session.graph.canonical id) = session.graph.canonical id
  roots : ∀ id, (session.graph.entry id).isRoot = true → (session.graph.entry id).redirect = none
  sameSignature : ∀ id target, (session.graph.entry id).redirect = some target →
    ∃ text, (session.graph.entry id).signature = some text ∧ (session.graph.entry target).signature = some text
  unique : ∀ a b text, (session.graph.entry a).signature = some text → (session.graph.entry b).signature = some text →
    (session.graph.entry a).redirect = none → (session.graph.entry b).redirect = none →
    (session.graph.entry a).isRoot = false → (session.graph.entry b).isRoot = false → a = b
  /-- One notice for each redirected type, about it and its target. -/
  reported : session.redirectNotices.Perm session.graph.redirectNotices

theorem Collapsed.settled (h : s.Collapsed) : s.RedirectsSettled := by
  have hstands : ∀ id, (s.graph.entry (s.graph.canonical id)).redirect = none := by
    intro id
    rw [h.canonical_eq]
    cases hredirect : (s.graph.entry id).redirect with
    | none => exact hredirect
    | some target => exact (h.redirects id target hredirect).1
  refine ⟨fun id n => ?_, hstands, fun id => Graph.follow_eq_self (hstands id) _, h.roots,
    fun id target hredirect => ?_, fun a b text ha hb hastands hbstands haroot hbroot => ?_, h.reported⟩
  · rw [h.canonical_eq, Graph.follow]
    cases hredirect : (s.graph.entry id).redirect with
    | none => rfl
    | some target => exact Graph.follow_eq_self (h.redirects id target hredirect).1 n
  · exact (h.redirects id target hredirect).2
  · exact Option.some.inj ((h.known a text ha haroot hastands).symm.trans (h.known b text hb hbroot hbstands))

/-- **Redirects are settled after any calls**, the failed ones included. -/
theorem redirectsSettled_performAll (config : Config) (calls : List Call) :
    (performAll config calls).RedirectsSettled := (collapsed_performAll config calls).settled

end Session
end SchemaTypes

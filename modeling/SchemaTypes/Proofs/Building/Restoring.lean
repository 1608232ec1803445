import Mathlib.Data.List.Nodup
import SchemaTypes.Proofs.Building.Order
/-!
# Storing a document again

A document that is stored again goes behind the others.  References by key do not notice.  A file name or an `$id` means
the first document that has it, so it means another one afterwards if it meant this document and another one has it, too
(`IsContested`); all other references mean what they did.  Processing stores its document first of all, and nothing else
(`locate?_stored_again`).
-/
namespace SchemaTypes

namespace Building

open Reference (Document Documents)

/-- What the condition finds is this document, and another one meets it as well. -/
def IsRivalled (documents : Documents) (document : Document) (p : Document → Bool) : Prop :=
  documents.find? p = some document ∧ ∃ other ∈ documents, other.key ≠ document.key ∧ p other = true

def hasFileName (reference : String) (document : Document) : Bool :=
  Documents.fileName document.key = Documents.fileName reference

/-- The reference means this document, but not by its key, and it could mean another one by the same criterion. -/
def IsContested (documents : Documents) (document : Document) (reference : String) : Prop :=
  documents.get? reference = none ∧
    (IsRivalled documents document (hasFileName reference) ∨
      documents.find? (hasFileName reference) = none ∧ IsRivalled documents document (Documents.hasId · reference))

section
variable {documents : Documents} {document : Document} {reference : String} {p : Document → Bool}

/-- The documents before and behind a stored one have other keys. -/
theorem exists_split (hkeys : Distinct documents) (hmem : document ∈ documents) : ∃ front back,
    documents = front ++ document :: back ∧ documents.insert document = front ++ back ++ [document] ∧
      ∀ other ∈ front ++ back, other.key ≠ document.key := by
  obtain ⟨front, back, rfl⟩ := List.append_of_mem hmem
  have hother : ∀ other ∈ front ++ back, other.key ≠ document.key := by
    unfold Distinct at hkeys
    rw [List.map_append, List.map_cons, List.nodup_middle, ← List.map_append, List.nodup_cons] at hkeys
    exact fun other hmem heq => hkeys.1 (heq ▸ List.mem_map_of_mem hmem)
  refine ⟨front, back, rfl, ?_, hother⟩
  have hkept : (front ++ back).filter (·.key ≠ document.key) = front ++ back :=
    List.filter_eq_self.2 fun other hmem => decide_eq_true (hother other hmem)
  unfold Documents.insert
  rw [List.filter_append, List.filter_cons_of_neg (by simp), ← List.filter_append, hkept]

/-- A document is rivalled by one behind it, if none before it meets the condition. -/
theorem isRivalled_iff {front back : Documents} (hother : ∀ other ∈ front ++ back, other.key ≠ document.key) :
    IsRivalled (front ++ document :: back) document p ↔
      front.find? p = none ∧ p document = true ∧ ∃ next, back.find? p = some next := by
  constructor
  · rintro ⟨hfound, other, hmem, hkey, hp⟩
    have hfront : front.find? p = none := by
      cases hfirst : front.find? p with
      | none => rfl
      | some first =>
        rw [List.find?_append, hfirst, Option.some_or] at hfound
        obtain rfl := Option.some.inj hfound
        exact absurd rfl (hother first (List.mem_append_left _ (List.mem_of_find?_eq_some hfirst)))
    refine ⟨hfront, List.find?_some hfound, Option.isSome_iff_exists.1 (List.find?_isSome.2 ⟨other, ?_, hp⟩)⟩
    rcases List.mem_append.1 hmem with hmem | hmem
    · exact absurd hp (List.find?_eq_none.1 hfront other hmem)
    · exact (List.mem_cons.1 hmem).resolve_left fun heq => hkey (heq ▸ rfl)
  · rintro ⟨hfront, hp, next, hnext⟩
    have hmem := List.mem_of_find?_eq_some hnext
    refine ⟨by rw [List.find?_append, hfront, Option.none_or, List.find?_cons_of_pos hp], next, ?_⟩
    exact ⟨List.mem_append_right _ (List.mem_cons_of_mem _ hmem), hother next (List.mem_append_right _ hmem),
      List.find?_some hnext⟩

/-- **One condition** finds what it did, unless the document is rivalled: then it finds the next one. -/
theorem find?_insert_iff (hkeys : Distinct documents) (hmem : document ∈ documents) :
    (documents.insert document).find? p = documents.find? p ↔ ¬ IsRivalled documents document p := by
  obtain ⟨front, back, rfl, hinsert, hother⟩ := exists_split hkeys hmem
  have hback : ∀ next, back.find? p = some next → next ≠ document := fun next hnext heq =>
    hother next (List.mem_append_right _ (List.mem_of_find?_eq_some hnext)) (heq ▸ rfl)
  rw [isRivalled_iff hother, hinsert, List.find?_append, List.find?_append, List.find?_append, List.find?_cons]
  cases front.find? p with
  | some first => simp
  | none =>
    cases hnext : back.find? p with
    | none => cases hp : p document <;> simp [hp, hnext]
    | some next => cases hp : p document <;> simp [hp, hnext, hback next hnext]

theorem get?_insert_again (hkeys : Distinct documents) (hmem : document ∈ documents) (key : String) :
    (documents.insert document).get? key = documents.get? key :=
  (get?_perm (insert_perm hkeys hmem).symm hkeys key).symm

theorem find?_insert_eq_none (hkeys : Distinct documents) (hmem : document ∈ documents) :
    (documents.insert document).find? p = none ↔ documents.find? p = none := by
  rw [List.find?_eq_none, List.find?_eq_none]
  exact forall_congr' fun other => by rw [(insert_perm hkeys hmem).mem_iff]

/-- **All references mean what they did**, except for the contested ones. -/
theorem locate?_insert_iff (hkeys : Distinct documents) (hmem : document ∈ documents) (reference : String) :
    (documents.insert document).locate? reference = documents.locate? reference ↔
      ¬ IsContested documents document reference := by
  have hget := get?_insert_again hkeys hmem reference
  have hname := @find?_insert_iff _ _ (hasFileName reference) hkeys hmem
  have hid := @find?_insert_iff _ _ (Documents.hasId · reference) hkeys hmem
  have hnone := @find?_insert_eq_none _ _ (hasFileName reference) hkeys hmem
  unfold IsContested
  change (Documents.get? _ reference <|> List.find? (hasFileName reference) _ <|> List.find? _ _) =
    (Documents.get? _ reference <|> List.find? (hasFileName reference) _ <|> List.find? _ _) ↔ _
  rw [hget]
  cases documents.get? reference with
  | some stored => simp
  | none =>
    cases hfound : documents.find? (hasFileName reference) with
    | none =>
      -- no file name counts, before and after
      have hno : ¬ IsRivalled documents document (hasFileName reference) := by
        rintro ⟨hsome, -⟩
        rw [hfound] at hsome
        cases hsome
      rw [hnone.2 hfound]
      simpa [hno] using hid
    | some first =>
      cases hagain : (documents.insert document).find? (hasFileName reference) with
      | none =>
        rw [hnone.1 hagain] at hfound
        cases hfound
      | some other =>
        rw [hagain, hfound] at hname
        simpa using hname

/-- Among unambiguous names there is nothing to contest. -/
theorem Unambiguous.not_isContested (h : Unambiguous documents) (document : Document) (reference : String) :
    ¬ IsContested documents document reference := by
  rintro ⟨-, ⟨hfound, other, hmem, hkey, hother⟩ | ⟨-, hfound, other, hmem, hkey, hother⟩⟩
  · have hname := List.find?_some hfound
    have hnames : Documents.fileName other.key = Documents.fileName document.key :=
      (of_decide_eq_true hother).trans (of_decide_eq_true hname).symm
    exact hkey (h.fileNames other hmem document (List.mem_of_find?_eq_some hfound) hnames ▸ rfl)
  · have hid := List.find?_some hfound
    exact hkey (h.ids reference other hmem document (List.mem_of_find?_eq_some hfound) hother hid ▸ rfl)

end

/-- What is left of documents stored one after the other. -/
def storeAll (stored : List Document) : Documents := stored.foldl Documents.insert []

theorem distinct_storeAll (stored : List Document) : Distinct (storeAll stored) := by
  suffices h : ∀ documents, Distinct documents → Distinct (stored.foldl Documents.insert documents) from h [] .nil
  induction stored with
  | nil => exact fun documents h => h
  | cons document rest ih => exact fun documents h => ih _ (h.insert document)

end Building

namespace Session

open Reference (Document Documents)
open Building (IsContested filed)

theorem distinct_performAll (config : Config) (calls : List Call) :
    Building.Distinct (performAll config calls).documents := by
  refine (keeps_performs (P := fun s => s.Orderly config ∧ Building.Distinct s.documents) (fun s call hs => ?_) calls {}
    ⟨orderly_performAll config [], .nil⟩).2
  refine ⟨hs.1.perform call, ?_⟩
  cases call with
  | register source value => exact hs.2.insert _
  | process source value => exact (hs.1.documents_process source value).symm ▸ hs.2.insert _

/-- **Storing a document again moves contested references only.**  In a store, however it came about, a reference means
the same document after one of the documents has been stored again exactly if it is not contested.  Processing a document
that is stored, with success or not, has the same effect. -/
theorem locate?_stored_again (config : Config) :
    (∀ stored document reference, document ∈ Building.storeAll stored →
      (((Building.storeAll stored).insert document).locate? reference = (Building.storeAll stored).locate? reference ↔
        ¬ IsContested (Building.storeAll stored) document reference)) ∧
    ∀ calls source value reference, filed (source, value) ∈ (performAll config calls).documents →
      (((performAll config calls).process config source value).2.documents.locate? reference =
          (performAll config calls).documents.locate? reference ↔
        ¬ IsContested (performAll config calls).documents (filed (source, value)) reference) := by
  refine ⟨fun stored document reference hmem => ?_, fun calls source value reference hmem => ?_⟩
  · exact Building.locate?_insert_iff (Building.distinct_storeAll stored) hmem reference
  · rw [(orderly_performAll config calls).documents_process source value]
    exact Building.locate?_insert_iff (distinct_performAll config calls) hmem reference

def firstHomonym : Source × Json := (⟨"x/a.json", "", "A"⟩, .object [("type", .string "object")])

def secondHomonym : Source × Json := (⟨"y/a.json", "", "B"⟩, .object [])

/-- Two documents with one file name. -/
def homonyms : List (Source × Json) := [firstHomonym, secondHomonym]

def filedHomonyms : Documents := homonyms.map filed

def homonymsRegistered : Session := performAll oneName (registering homonyms)

theorem documents_homonymsRegistered : homonymsRegistered.documents = filedHomonyms := by
  refine documents_registering (s := {}) ?_
  change ["x/a.json", "y/a.json"].Nodup
  decide

theorem storeAll_homonyms : Building.storeAll filedHomonyms = filedHomonyms := rfl

theorem firstHomonym_mem : filed firstHomonym ∈ filedHomonyms := List.mem_cons_self

theorem isContested_homonyms : IsContested filedHomonyms (filed firstHomonym) "a.json" :=
  ⟨rfl, .inl ⟨rfl, filed secondHomonym, List.mem_cons_of_mem _ List.mem_cons_self, by decide, by decide⟩⟩

theorem not_isContested_homonyms : ¬ IsContested filedHomonyms (filed firstHomonym) "x/a.json" := by
  have hkey : filedHomonyms.get? "x/a.json" = some (filed firstHomonym) := rfl
  rintro ⟨hnone, -⟩
  rw [hkey] at hnone
  cases hnone

/-- The first one keeps its key when it is stored again, and loses its file name to the other one when it is
processed. -/
theorem locate?_stored_again_homonyms :
    (filedHomonyms.insert (filed firstHomonym)).locate? "x/a.json" = filedHomonyms.locate? "x/a.json" ∧
      (homonymsRegistered.process oneName firstHomonym.1 firstHomonym.2).2.documents.locate? "a.json" ≠
        homonymsRegistered.documents.locate? "a.json" := by
  obtain ⟨hstore, hprocess⟩ := locate?_stored_again oneName
  constructor
  · have hsame := hstore filedHomonyms (filed firstHomonym) "x/a.json"
    rw [storeAll_homonyms] at hsame
    exact (hsame firstHomonym_mem).2 not_isContested_homonyms
  · have hmoved := hprocess (registering homonyms) firstHomonym.1 firstHomonym.2 "a.json"
    change filed firstHomonym ∈ homonymsRegistered.documents → _ at hmoved
    intro heq
    refine (hmoved (documents_homonymsRegistered ▸ firstHomonym_mem)).1 heq ?_
    exact documents_homonymsRegistered.symm ▸ isContested_homonyms

/-- **A file name passes to the next document that has it**, when the first one is stored again and so when it is
processed. -/
theorem not_forall_locate?_stored_again :
    (¬ ∀ stored document reference, document ∈ Building.storeAll stored →
      ((Building.storeAll stored).insert document).locate? reference =
        (Building.storeAll stored).locate? reference) ∧
    ¬ ∀ config calls source value reference, filed (source, value) ∈ (performAll config calls).documents →
      ((performAll config calls).process config source value).2.documents.locate? reference =
        (performAll config calls).documents.locate? reference := by
  have hmoved : (filedHomonyms.insert (filed firstHomonym)).locate? "a.json" ≠ filedHomonyms.locate? "a.json" :=
    fun heq => (Building.locate?_insert_iff (storeAll_homonyms ▸ Building.distinct_storeAll _) firstHomonym_mem
      "a.json").1 heq isContested_homonyms
  constructor
  · intro h
    have heq := h filedHomonyms (filed firstHomonym) "a.json"
    rw [storeAll_homonyms] at heq
    exact hmoved (heq firstHomonym_mem)
  · intro h
    have heq := h oneName (registering homonyms) firstHomonym.1 firstHomonym.2 "a.json"
    rw [(orderly_performAll _ _).documents_process] at heq
    change filed firstHomonym ∈ homonymsRegistered.documents → (homonymsRegistered.documents.insert
      (filed firstHomonym)).locate? _ = homonymsRegistered.documents.locate? _ at heq
    rw [documents_homonymsRegistered] at heq
    exact hmoved (heq firstHomonym_mem)

end Session
end SchemaTypes

import SchemaTypes.Check.Message
import SchemaTypes.Proofs.Json.MemberOrder
/-!
# Slots

Slots are filled one name after the other over the whole message.  Around a slot stand words without braces, and behind
it one of a few marks (`Template.isSpaced`).  So a filling works on each slot apart, as long as no occurrence of its name
in braces reaches over such a mark (`Template.replaceAll_filledWith`).

What is in a slot already is not safe: a later name that occurs in it in braces is replaced there as well, by this name's
text.  Where no text has a later name in it, all slots get what is first given for their names, at once
(`Check.message_eq_filled`).
-/
namespace SchemaTypes

namespace Text

variable {needle replacement first rest : List Char} {c : Char}

/-- No occurrence reaches over a character that is not in the needle. -/
theorem prefix_of_prefix_split (hc : c ∉ needle) (first : List Char) {rest : List Char}
    (h : needle <+: first ++ c :: rest) : needle <+: first := by
  rcases List.prefix_or_prefix_of_prefix h (List.prefix_append first (c :: rest)) with hfirst | hfirst
  · exact hfirst
  · obtain ⟨more, rfl⟩ := hfirst
    have hmore : more <+: c :: rest := (List.prefix_append_right_inj first).1 h
    cases more with
    | nil => exact (List.append_nil first).symm ▸ List.prefix_rfl
    | cons d more =>
      rw [List.cons_prefix_cons] at hmore
      exact absurd (List.mem_append_right first (hmore.1 ▸ List.mem_cons_self)) hc

/-- No occurrence of the needle begins in the first text and ends in the rest. -/
def Parted (needle first rest : List Char) : Prop :=
  ∀ part, part <:+ first → part ≠ [] → needle <+: part ++ rest → needle <+: part

theorem replaceFrom_append (hneedle : needle ≠ []) : ∀ (first : List Char) (skipped : Nat), skipped ≤ first.length →
    Parted needle first rest → replaceFrom needle replacement skipped (first ++ rest) =
      replaceFrom needle replacement skipped first ++ replaceFrom needle replacement 0 rest
  | [], skipped, hle, _ => by
    obtain rfl := Nat.le_zero.1 hle
    rfl
  | c :: first, skipped + 1, hle, h => by
    simp only [List.cons_append, replaceFrom]
    exact replaceFrom_append hneedle first skipped (Nat.le_of_succ_le_succ hle)
      fun part hpart => h part (hpart.trans (List.suffix_cons c first))
  | c :: first, 0, _, h => by
    have hrest : Parted needle first rest := fun part hpart => h part (hpart.trans (List.suffix_cons c first))
    have hsame : needle.isPrefixOf (c :: (first ++ rest)) = needle.isPrefixOf (c :: first) := by
      rw [Bool.eq_iff_iff, List.isPrefixOf_iff_prefix, List.isPrefixOf_iff_prefix]
      exact ⟨h (c :: first) List.suffix_rfl (List.cons_ne_nil _ _), fun h => h.trans (List.prefix_append (c :: first) _)⟩
    simp only [List.cons_append, replaceFrom, hsame]
    split
    · rename_i hbegins
      have hlength : needle.length ≤ first.length + 1 := (List.isPrefixOf_iff_prefix.1 hbegins).length_le
      rw [replaceFrom_append hneedle first (needle.length - 1) (by omega) hrest, List.append_assoc]
    · rw [replaceFrom_append hneedle first 0 (Nat.zero_le _) hrest]
      rfl

/-- **Replacing works on two texts apart** if no occurrence reaches from one into the other. -/
theorem replaceAll_append (hneedle : needle ≠ []) (h : Parted needle first rest) :
    replaceAll needle replacement (first ++ rest) =
      replaceAll needle replacement first ++ replaceAll needle replacement rest :=
  replaceFrom_append hneedle first 0 (Nat.zero_le _) h

theorem replaceAll_of_absent {text : List Char} (h : ¬ needle <:+: text) :
    replaceAll needle replacement text = text := by
  unfold replaceAll
  induction text with
  | nil => rfl
  | cons c rest ih =>
    have hno : needle.isPrefixOf (c :: rest) = false :=
      Bool.eq_false_iff.2 fun hyes => h (List.isPrefixOf_iff_prefix.1 hyes).isInfix
    simp only [replaceFrom, hno, Bool.false_eq_true, if_false]
    rw [ih fun hrest => h (hrest.trans (List.suffix_cons c rest).isInfix)]

theorem replaceFrom_length : ∀ text : List Char, replaceFrom needle replacement text.length text = []
  | [] => rfl
  | _ :: rest => replaceFrom_length rest

theorem replaceAll_self (hneedle : needle ≠ []) : replaceAll needle replacement needle = replacement := by
  cases needle with
  | nil => exact absurd rfl hneedle
  | cons c needle =>
    have hyes : (c :: needle).isPrefixOf (c :: needle) = true := List.isPrefixOf_iff_prefix.2 List.prefix_rfl
    unfold replaceAll
    simp only [replaceFrom, hyes, if_true]
    rw [List.length_cons, Nat.add_sub_cancel, replaceFrom_length, List.append_nil]

end Text

theorem fillSlots_cons (text : List Char) (name : String) (value : Json) (rest : Members) :
    fillSlots text ((name, value) :: rest) =
      fillSlots (Text.replaceAll (Template.placeholder name) value.inMessage.toList text) rest := rfl

namespace Template

variable {template : Template} {name other : String} {content : String → List Char} {text rest : List Char}

/-! ## Slots alone -/

theorem placeholder_ne_nil (name : String) : placeholder name ≠ [] := List.cons_ne_nil _ _

/-- A slot of a template has no braces inside. -/
def IsPlain (name : String) : Prop := '{' ∉ name.toList ∧ '}' ∉ name.toList

/-- What ends with a slot that is begun in it is all of it. -/
theorem eq_placeholder_of_suffix (hother : IsPlain other) {part : List Char} (hsuffix : part <:+ placeholder other)
    (hbegins : placeholder name <+: part ++ rest) (hne : part ≠ []) : part = placeholder other := by
  obtain ⟨before, hbefore⟩ := hsuffix
  cases before with
  | nil => exact hbefore
  | cons c before =>
    obtain ⟨d, part, rfl⟩ := List.exists_cons_of_ne_nil hne
    rw [List.cons_append] at hbegins
    obtain rfl : '{' = d := (List.cons_prefix_cons.1 hbegins).1
    have hinside : before ++ '{' :: part = other.toList ++ ['}'] := (List.cons.inj hbefore).2
    have hmem : '{' ∈ other.toList ++ ['}'] := hinside ▸ List.mem_append_right _ List.mem_cons_self
    rcases List.mem_append.1 hmem with hmem | hmem
    · exact absurd hmem hother.1
    · exact absurd hmem (by decide)

theorem eq_of_begins (hother : IsPlain other) (h : placeholder name <+: placeholder other) : name = other := by
  have hinside : name.toList ++ ['}'] <+: other.toList ++ ['}'] := (List.cons_prefix_cons.1 h).2
  rcases List.prefix_concat_iff.1 hinside with heq | hbegins
  · exact String.toList_inj.1 (List.append_cancel_right heq)
  · exact absurd (hbegins.subset (List.mem_append_right _ List.mem_cons_self)) hother.2

/-- **A slot is no other one**, unless the other name has a closing brace in it and what follows the slot has one, too. -/
theorem parted_placeholder (hother : IsPlain other) (h : '}' ∈ name.toList → '}' ∉ rest) :
    Text.Parted (placeholder name) (placeholder other) rest := by
  intro part hsuffix hne hbegins
  obtain rfl := eq_placeholder_of_suffix hother hsuffix hbegins hne
  rcases List.prefix_or_prefix_of_prefix hbegins (List.prefix_append (placeholder other) rest) with hfound | hfound
  · exact hfound
  · obtain ⟨more, hmore⟩ := hfound
    rcases List.eq_nil_or_concat more with rfl | ⟨front, c, rfl⟩
    · exact ((List.append_nil _).symm.trans hmore) ▸ List.prefix_rfl
    · -- the last brace of the longer name is behind the slot
      have hinside : other.toList ++ '}' :: front ++ [c] = name.toList ++ ['}'] := by
        have htail := (List.cons.inj hmore).2
        simpa using htail
      obtain ⟨hname, hc⟩ := List.append_inj' hinside rfl
      rw [← hmore, List.prefix_append_right_inj, List.concat_eq_append] at hbegins
      refine absurd (hbegins.subset (List.mem_append_right _ (hc ▸ List.mem_cons_self))) (h ?_)
      rw [← hname]
      exact List.mem_append_right _ List.mem_cons_self

theorem replaceAll_placeholder {replacement : List Char} (hother : IsPlain other) :
    Text.replaceAll (placeholder name) replacement (placeholder other) =
      if name = other then replacement else placeholder other := by
  split
  · rename_i heq
    rw [heq]
    exact Text.replaceAll_self (placeholder_ne_nil other)
  · rename_i hne
    refine Text.replaceAll_of_absent fun hoccurs => hne ?_
    obtain ⟨part, hbegins, hsuffix⟩ := List.infix_iff_prefix_suffix.1 hoccurs
    have hpart : part ≠ [] := fun hnil => placeholder_ne_nil name (List.prefix_nil.1 (hnil ▸ hbegins))
    obtain rfl := eq_placeholder_of_suffix hother hsuffix ((List.append_nil part).symm ▸ hbegins) hpart
    exact eq_of_begins hother hbegins

/-! ## All slots of a template -/

/-- The template's text with something in the place of each slot. -/
def filledWith (content : String → List Char) (template : Template) : List Char :=
  template.flatMap fun
    | .text text => text.toList
    | .slot name => content name

theorem filledWith_placeholder : template.filledWith placeholder = template.chars := rfl

theorem filledWith_text {words : String} :
    filledWith content (.text words :: template) = words.toList ++ filledWith content template := rfl

theorem filledWith_slot : filledWith content (.slot name :: template) = content name ++ filledWith content template :=
  rfl

theorem filledWith_congr {content' : String → List Char} : ∀ {template : Template},
    (∀ name ∈ template.slots, content name = content' name) →
      filledWith content template = filledWith content' template
  | [], _ => rfl
  | .text words :: template, h => congrArg (words.toList ++ ·) (filledWith_congr h)
  | .slot name :: template, h => by
    have hrest : filledWith content template = filledWith content' template :=
      filledWith_congr fun other hother => h other (List.mem_cons_of_mem _ hother)
    rw [filledWith_slot, filledWith_slot, h name List.mem_cons_self, hrest]

/-- What may stand behind a slot. -/
def separators : List Char := [' ', '.', ',', ':', ']']

/-- The template ends or goes on with a separator. -/
def startsApart : Template → Bool
  | [] => true
  | .text text :: _ => text.toList.head?.any separators.contains
  | .slot _ :: _ => false

/-- Braces are around slots only, and behind each one there is a separator, unless the template ends there. -/
def isSpaced : Template → Bool
  | [] => true
  | .text text :: rest => !text.toList.contains '{' && !text.toList.contains '}' && isSpaced rest
  | .slot name :: rest =>
    !name.toList.contains '{' && !name.toList.contains '}' && startsApart rest && isSpaced rest

theorem isSpaced_text {words : String} : isSpaced (.text words :: template) = true ↔
    IsPlain words ∧ isSpaced template = true := by
  simp [isSpaced, IsPlain, and_assoc]

theorem isSpaced_slot : isSpaced (.slot name :: template) = true ↔
    IsPlain name ∧ startsApart template = true ∧ isSpaced template = true := by
  simp [isSpaced, IsPlain, and_assoc]

/-- What stands behind a slot begins with a separator. -/
theorem filledWith_of_startsApart (h : startsApart template = true) : filledWith content template = [] ∨
    ∃ mark ∈ separators, ∃ rest, filledWith content template = mark :: rest := by
  cases template with
  | nil => exact .inl rfl
  | cons part template =>
    cases part with
    | slot name => exact nomatch h
    | text words =>
      obtain ⟨mark, hmark, hseparator⟩ := (Option.any_eq_true _ _).1 h
      obtain ⟨rest, hrest⟩ := List.head?_eq_some_iff.1 hmark
      refine .inr ⟨mark, List.contains_iff_mem.1 hseparator, rest ++ filledWith content template, ?_⟩
      rw [filledWith_text, hrest]
      rfl

theorem parted_of_not_mem (h : '{' ∉ text) : Text.Parted (placeholder name) text rest := by
  intro part hsuffix hne hbegins
  obtain ⟨c, part, rfl⟩ := List.exists_cons_of_ne_nil hne
  obtain rfl : '{' = c := (List.cons_prefix_cons.1 hbegins).1
  exact absurd (hsuffix.subset List.mem_cons_self) h

/-- **Replacing a name works on each slot apart**, if no occurrence begins in one and ends behind it. -/
theorem replaceAll_filledWith {replacement : List Char} : ∀ {template : Template}, isSpaced template = true →
    (∀ (other : String) (back : Template), .slot other :: back <:+ template →
      Text.Parted (placeholder name) (content other) (filledWith content back)) →
    Text.replaceAll (placeholder name) replacement (filledWith content template) =
      filledWith (fun other => Text.replaceAll (placeholder name) replacement (content other)) template
  | [], _, _ => rfl
  | .text words :: template, hspaced, h => by
    obtain ⟨hwords, hspaced⟩ := isSpaced_text.1 hspaced
    have hrest : Text.replaceAll (placeholder name) replacement (filledWith content template) =
        filledWith (fun other => Text.replaceAll (placeholder name) replacement (content other)) template :=
      replaceAll_filledWith hspaced fun other back hback => h other back (hback.trans (List.suffix_cons _ _))
    have hsame : Text.replaceAll (placeholder name) replacement words.toList = words.toList :=
      Text.replaceAll_of_not_mem _ _ hwords.1
    rw [filledWith_text, filledWith_text, Text.replaceAll_append (placeholder_ne_nil name) (parted_of_not_mem hwords.1),
      hrest, hsame]
  | .slot other :: template, hspaced, h => by
    obtain ⟨-, -, hspaced⟩ := isSpaced_slot.1 hspaced
    have hrest : Text.replaceAll (placeholder name) replacement (filledWith content template) =
        filledWith (fun other => Text.replaceAll (placeholder name) replacement (content other)) template :=
      replaceAll_filledWith hspaced fun other back hback => h other back (hback.trans (List.suffix_cons _ _))
    have hslot := h other template List.suffix_rfl
    rw [filledWith_slot, filledWith_slot, Text.replaceAll_append (placeholder_ne_nil name) hslot, hrest]

/-! ## Templates in parts -/

theorem isSpaced_of_suffix {back : Template} : ∀ {template : Template}, isSpaced template = true →
    back <:+ template → isSpaced back = true
  | [], h, hback => (List.suffix_nil.1 hback) ▸ h
  | part :: template, h, hback => by
    rcases List.suffix_cons_iff.1 hback with rfl | hback
    · exact h
    · refine isSpaced_of_suffix ?_ hback
      cases part with
      | text words => exact (isSpaced_text.1 h).2
      | slot name => exact (isSpaced_slot.1 h).2.2

theorem suffix_of_mem_slots : ∀ {template : Template}, name ∈ slots template →
    ∃ back : Template, .slot name :: back <:+ template
  | .text _ :: template, h => by
    have hmem : name ∈ slots template := h
    obtain ⟨back, hback⟩ := suffix_of_mem_slots hmem
    exact ⟨back, hback.trans (List.suffix_cons _ _)⟩
  | .slot other :: template, h => by
    rcases List.mem_cons.1 h with rfl | h
    · exact ⟨template, List.suffix_rfl⟩
    · obtain ⟨back, hback⟩ := suffix_of_mem_slots h
      exact ⟨back, hback.trans (List.suffix_cons _ _)⟩

theorem isPlain_of_mem_slots (hspaced : isSpaced template = true) (h : name ∈ slots template) : IsPlain name := by
  obtain ⟨back, hback⟩ := suffix_of_mem_slots h
  exact (isSpaced_slot.1 (isSpaced_of_suffix hspaced hback)).1

/-- Behind the last slot there is no brace. -/
theorem not_mem_filledWith : ∀ {template : Template}, isSpaced template = true → slots template = [] →
    '}' ∉ filledWith content template
  | [], _, _ => List.not_mem_nil
  | .text words :: template, hspaced, h => by
    obtain ⟨hwords, hspaced⟩ := isSpaced_text.1 hspaced
    rw [filledWith_text, List.mem_append, not_or]
    exact ⟨hwords.2, not_mem_filledWith hspaced h⟩

theorem slots_append {front back : Template} :
    slots (front ++ .slot name :: back) = slots front ++ name :: slots back := List.filterMap_append

theorem mem_slots_of_suffix {back : Template} (hback : .slot name :: back <:+ template) : name ∈ slots template := by
  obtain ⟨front, rfl⟩ := hback
  rw [slots_append]
  exact List.mem_append_right _ List.mem_cons_self

theorem mem_dropLast_slots {back : Template} (hback : .slot name :: back <:+ template) (hmore : slots back ≠ []) :
    name ∈ (slots template).dropLast := by
  obtain ⟨front, rfl⟩ := hback
  rw [slots_append, List.dropLast_append_cons, List.dropLast_cons_of_ne_nil hmore]
  exact List.mem_append_right _ List.mem_cons_self

/-! ## Filling -/

/-- What is in a slot once the parameters have been filled in. -/
def slotText (parameters : Members) (name : String) : List Char :=
  match parameters.get? name with
  | some value => value.inMessage.toList
  | none => placeholder name

/-- All slots filled at once. -/
def filled (template : Template) (parameters : Members) : String :=
  String.ofList (filledWith (slotText parameters) template)

/-- A text in which no slot of that name is found, nor the beginning of one that a separator goes on with. -/
structure IsClear (name : String) (text : List Char) : Prop where
  absent : ¬ placeholder name <:+: text
  unbegun : ∀ part, part <:+ text → part ≠ [] → ∀ mark ∈ separators, ¬ part ++ [mark] <+: placeholder name

/-- No parameter's text has a slot for a later one. -/
def Undisturbed (template : Template) (parameters : Members) : Prop :=
  parameters.Pairwise fun earlier later => earlier.1 ∈ slots template → IsClear later.1 earlier.2.inMessage.toList

theorem IsClear.of_not_mem (h : '{' ∉ text) : IsClear name text := by
  have hno : ∀ part more, part <:+ text → part ≠ [] → ¬ part ++ more <+: placeholder name := by
    intro part more hsuffix hne hbegins
    obtain ⟨c, part, rfl⟩ := List.exists_cons_of_ne_nil hne
    obtain rfl : c = '{' := (List.cons_prefix_cons.1 hbegins).1
    exact h (hsuffix.subset List.mem_cons_self)
  refine ⟨fun hoccurs => ?_, fun part hsuffix hne mark _ => hno part [mark] hsuffix hne⟩
  exact h (hoccurs.subset List.mem_cons_self)

/-- Texts without braces are safe. -/
theorem Undisturbed.of_not_mem {parameters : Members}
    (h : ∀ parameter ∈ parameters, parameter.1 ∈ slots template → '{' ∉ parameter.2.inMessage.toList) :
    Undisturbed template parameters :=
  List.pairwise_of_forall_mem_list fun earlier hearlier _ _ hslot => .of_not_mem (h earlier hearlier hslot)

theorem IsClear.parted {back : Template} (h : IsClear name text) (hback : startsApart back = true) :
    Text.Parted (placeholder name) text (filledWith content back) := by
  intro part hsuffix hne hbegins
  rcases filledWith_of_startsApart hback with hnil | ⟨mark, hmark, rest, hrest⟩
  · rw [hnil, List.append_nil] at hbegins
    exact hbegins
  · have hno := h.unbegun part hsuffix hne mark hmark
    have hmarked : part ++ [mark] <+: part ++ mark :: rest := ⟨rest, by simp⟩
    rw [hrest] at hbegins
    rcases List.prefix_or_prefix_of_prefix hbegins hmarked with hfound | hfound
    · rcases List.prefix_concat_iff.1 hfound with heq | hfound
      · exact absurd (heq ▸ List.prefix_rfl) hno
      · exact hfound
    · exact absurd hfound hno

theorem get?_append_singleton (parameters : Members) (value : Json) :
    Members.get? (parameters ++ [(name, value)]) other =
      (parameters.get? other).or (if name = other then some value else none) := by
  unfold Members.get?
  rw [List.lookup_append, List.lookup_cons, List.lookup_nil]
  by_cases heq : name = other
  · simp [heq]
  · have hne : (other == name) = false := beq_false_of_ne (Ne.symm heq)
    simp [heq, hne]

/-- **One filling** takes the slots of its name, and leaves what is in the others. -/
theorem replaceAll_slotText {parameters : Members} {value : Json} (hspaced : isSpaced template = true)
    (hclosed : '}' ∈ name.toList → ∀ other ∈ (slots template).dropLast, (parameters.get? other).isSome = true)
    (hclear : ∀ parameter ∈ parameters, parameter.1 ∈ slots template → IsClear name parameter.2.inMessage.toList) :
    Text.replaceAll (placeholder name) value.inMessage.toList (filledWith (slotText parameters) template) =
      filledWith (slotText (parameters ++ [(name, value)])) template := by
  have hparted : ∀ (other : String) (back : Template), .slot other :: back <:+ template →
      Text.Parted (placeholder name) (slotText parameters other) (filledWith (slotText parameters) back) := by
    intro other back hback
    obtain ⟨hplain, hapart, hrest⟩ := isSpaced_slot.1 (isSpaced_of_suffix hspaced hback)
    unfold slotText
    split
    · rename_i given hgiven
      exact (hclear _ (Members.mem_of_get? hgiven) (mem_slots_of_suffix hback)).parted hapart
    · rename_i hnone
      refine parted_placeholder hplain fun hbrace => not_mem_filledWith hrest ?_
      by_contra hmore
      have hsome := hclosed hbrace other (mem_dropLast_slots hback hmore)
      rw [hnone] at hsome
      cases hsome
  rw [replaceAll_filledWith hspaced hparted]
  refine filledWith_congr fun other hother => ?_
  unfold slotText
  rw [get?_append_singleton]
  cases hgiven : parameters.get? other with
  | some given => exact Text.replaceAll_of_absent (hclear _ (Members.mem_of_get? hgiven) hother).absent
  | none =>
    simp only [Option.none_or]
    rw [replaceAll_placeholder (isPlain_of_mem_slots hspaced hother)]
    split <;> rfl

/-- **Filling one name after the other fills all slots at once**, if no text has a slot for a later name. -/
theorem fillSlots_slotText (hspaced : isSpaced template = true) : ∀ (given parameters : Members),
    Undisturbed template (given ++ parameters) → (∀ parameter ∈ parameters, '}' ∈ parameter.1.toList →
      ∀ other ∈ (slots template).dropLast, (given.get? other).isSome = true) →
    fillSlots (filledWith (slotText given) template) parameters = filledWith (slotText (given ++ parameters)) template
  | given, [], _, _ => by
    rw [List.append_nil]
    rfl
  | given, (name, value) :: parameters, hundisturbed, hclosed => by
    obtain ⟨hname, hclosed⟩ := List.forall_mem_cons.1 hclosed
    have hclear : ∀ parameter ∈ given, parameter.1 ∈ slots template → IsClear name parameter.2.inMessage.toList :=
      fun parameter hparameter => (List.pairwise_append.1 hundisturbed).2.2 parameter hparameter _ List.mem_cons_self
    have hsplit : given ++ (name, value) :: parameters = given ++ [(name, value)] ++ parameters := by simp
    rw [fillSlots_cons, replaceAll_slotText hspaced hname hclear, hsplit]
    refine fillSlots_slotText hspaced _ parameters (hsplit ▸ hundisturbed) ?_
    intro parameter hparameter hbrace other hother
    rw [get?_append_singleton, Option.isSome_or, hclosed parameter hparameter hbrace other hother, Bool.true_or]

/-! ## What becomes of a text -/

/-- A slot by itself: it gets the text of the first parameter of its name, and slots in this text are filled by later
ones. -/
def expandedSlot : Members → String → List Char
  | [], name => placeholder name
  | (other, value) :: later, name =>
    if other = name then fillSlots value.inMessage.toList later else expandedSlot later name

theorem fillSlots_placeholder (hname : IsPlain name) : ∀ parameters : Members,
    fillSlots (placeholder name) parameters = expandedSlot parameters name
  | [] => rfl
  | (other, value) :: later => by
    rw [fillSlots_cons, replaceAll_placeholder hname]
    unfold expandedSlot
    split
    · rfl
    · exact fillSlots_placeholder hname later

/-- No separator is in the name. -/
def IsUnbroken (name : String) : Prop := ∀ mark ∈ separators, mark ∉ name.toList

instance (name : String) : Decidable (IsUnbroken name) :=
  List.decidableBAll (fun mark => mark ∉ name.toList) separators

theorem IsUnbroken.not_mem (h : IsUnbroken name) {mark : Char} (hmark : mark ∈ separators) :
    mark ∉ placeholder name := by
  have hbraces : ∀ mark ∈ separators, mark ≠ '{' ∧ mark ≠ '}' := by simp [separators]
  obtain ⟨hopening, hclosing⟩ := hbraces mark hmark
  simp [placeholder, hopening, hclosing, h mark hmark]

/-- A name without separators is not found beyond the text it is not found in. -/
theorem IsUnbroken.isClear (h : IsUnbroken name) (habsent : ¬ placeholder name <:+: text) : IsClear name text :=
  ⟨habsent, fun _ _ _ _ hmark hbegins =>
    h.not_mem hmark (hbegins.subset (List.mem_append_right _ List.mem_cons_self))⟩

theorem parted_of_isUnbroken {back : Template} (h : IsUnbroken name) (hback : startsApart back = true) :
    Text.Parted (placeholder name) text (filledWith content back) := by
  intro part _ _ hbegins
  rcases filledWith_of_startsApart hback with hnil | ⟨mark, hmark, rest, hrest⟩
  · rw [hnil, List.append_nil] at hbegins
    exact hbegins
  · rw [hrest] at hbegins
    exact Text.prefix_of_prefix_split (h.not_mem hmark) part hbegins

/-- **Names without separators are filled into each slot apart**: into a text, too, that an earlier one has put there. -/
theorem fillSlots_filledWith (hspaced : isSpaced template = true) :
    ∀ {parameters : Members} {content : String → List Char}, (∀ parameter ∈ parameters, IsUnbroken parameter.1) →
      fillSlots (filledWith content template) parameters =
        filledWith (fun name => fillSlots (content name) parameters) template
  | [], _, _ => rfl
  | (name, value) :: parameters, content, h => by
    obtain ⟨hname, h⟩ := List.forall_mem_cons.1 h
    have hparted : ∀ (other : String) (back : Template), .slot other :: back <:+ template →
        Text.Parted (placeholder name) (content other) (filledWith content back) := fun other back hback =>
      parted_of_isUnbroken hname (isSpaced_slot.1 (isSpaced_of_suffix hspaced hback)).2.1
    rw [fillSlots_cons, replaceAll_filledWith hspaced hparted, fillSlots_filledWith hspaced h]
    rfl

end Template

namespace Check

/-! ## Templates of checks -/

variable (check : Check) (property : String) (runtime : Members)

/-- What a message is filled with, first to last. -/
def fillings : Members := ("property", .string property) :: check.parameters ++ runtime

theorem message_eq : check.message property runtime =
    String.ofList (fillSlots check.template.chars (check.fillings property runtime)) := by
  unfold fillings message fillSlots
  rw [List.cons_append, List.foldl_cons, List.foldl_append]
  rfl

theorem isSpaced_template : check.template.isSpaced = true := by
  cases check with
  | minimum limit exclusive => cases exclusive <;> rfl
  | maximum limit exclusive => cases exclusive <;> rfl
  | _ => rfl

/-- All slots but the last are known when the check is built. -/
theorem known_slots : ∀ name ∈ check.template.slots.dropLast,
    (Members.get? (("property", .string property) :: check.parameters) name).isSome = true := by
  cases check with
  | minimum limit exclusive => cases exclusive <;> simp [template, Template.slots, Members.get?, parameters]
  | maximum limit exclusive => cases exclusive <;> simp [template, Template.slots, Members.get?, parameters]
  | _ => simp [template, Template.slots, Members.get?, parameters]

/-- The names of what is known when a check is built. -/
def knownNames : List String :=
  ["property", "expected", "allowed", "const", "limit", "divisor", "pattern", "length", "count", "class", "key",
    "trigger", "dependants", "keyword", "requirement", "filter", "options", "reference", "description"]

theorem mem_knownNames : ∀ parameter ∈ ("property", .string property) :: check.parameters, parameter.1 ∈ knownNames := by
  refine List.forall_mem_cons.2 ⟨List.mem_cons_self, ?_⟩
  cases check with
  | filter name options accepts apply =>
    simp only [parameters, List.forall_mem_cons]
    refine ⟨by decide, ?_⟩
    split
    · simp
    · simp [knownNames]
  | _ => simp [parameters, knownNames]

theorem knownNames_unbroken : ∀ name ∈ knownNames, Template.IsUnbroken name ∧ '}' ∉ name.toList := by decide

/-! ## Messages -/

/-- **Where no text has a slot for a later parameter**, all slots are filled at once. -/
theorem message_eq_filled (h : check.template.Undisturbed (check.fillings property runtime)) :
    check.message property runtime = check.template.filled (check.fillings property runtime) := by
  have hspaced := check.isSpaced_template
  have hfillings : check.fillings property runtime = ("property", .string property) :: check.parameters ++ runtime := rfl
  rw [hfillings] at h
  -- first what is known before, whose names have no braces, and then what is left of the slots: the last one at most
  have hknown : fillSlots check.template.chars (("property", .string property) :: check.parameters) =
      check.template.filledWith (Template.slotText (("property", .string property) :: check.parameters)) := by
    refine Template.fillSlots_slotText hspaced [] _ (h.sublist (List.sublist_append_left _ _)) ?_
    intro parameter hparameter hbrace
    exact absurd hbrace (knownNames_unbroken _ (check.mem_knownNames property parameter hparameter)).2
  have hall := Template.fillSlots_slotText hspaced _ runtime h fun _ _ _ => check.known_slots property
  rw [← hknown] at hall
  rw [message_eq, hfillings]
  unfold Template.filled fillSlots
  rw [List.foldl_append]
  exact congrArg String.ofList hall

/-- **Each slot is filled by itself** if no name has a separator in it. -/
theorem message_eq_expanded (h : ∀ parameter ∈ runtime, Template.IsUnbroken parameter.1) :
    check.message property runtime =
      String.ofList (check.template.filledWith (Template.expandedSlot (check.fillings property runtime))) := by
  have hspaced := check.isSpaced_template
  have hunbroken : ∀ parameter ∈ check.fillings property runtime, Template.IsUnbroken parameter.1 := by
    intro parameter hparameter
    rcases List.mem_append.1 hparameter with hparameter | hparameter
    · exact (knownNames_unbroken _ (check.mem_knownNames property parameter hparameter)).1
    · exact h parameter hparameter
  rw [message_eq, ← Template.filledWith_placeholder, Template.fillSlots_filledWith hspaced hunbroken]
  refine congrArg String.ofList (Template.filledWith_congr fun name hname => ?_)
  exact Template.fillSlots_placeholder (Template.isPlain_of_mem_slots hspaced hname) _

end Check

end SchemaTypes

import SchemaTypes.Proofs.Naming.Identifiers
import SchemaTypes.Proofs.Text.LetterCase
/-!
# Well-formed identifiers

The words of a name are its letters and digits, cut where anything else stands between them (`Naming.flatten_words`).  In
camel case they are a letter or digit with letters, digits and combining marks behind it: what begins a word may have a mark
in its other case.  Where it has none, nothing but letters and digits is left, and the identifier is its own identifier;
where it has one, the mark ends a word of the identifier, which is then changed again (`Naming.identifier?_wellFormed`,
`Naming.not_forall_identifier?`).
-/
namespace SchemaTypes.Naming

variable {name word : List Char} {others : List (List Char)} {c first : Char} {rest : List Char}

/-! ## Words -/

structure IsWord (word : List Char) : Prop where
  ne_nil : word ≠ []
  letters : ∀ c ∈ word, Text.isAlphanumeric c = true

theorem isWord_reverse {current : List Char} (hne : current.isEmpty = false)
    (h : ∀ c ∈ current, Text.isAlphanumeric c = true) : IsWord current.reverse where
  ne_nil hnil := by
    rw [List.reverse_eq_nil_iff.1 hnil] at hne
    cases hne
  letters c hc := h c (List.mem_reverse.1 hc)

theorem isWord_of_mem_wordsFrom : ∀ {rest current : List Char}, (∀ c ∈ current, Text.isAlphanumeric c = true) →
    ∀ word ∈ wordsFrom current rest, IsWord word
  | [], current, h, word, hword => by
    rw [wordsFrom] at hword
    cases hempty : current.isEmpty with
    | true => simp [hempty] at hword
    | false =>
      rw [hempty, if_neg Bool.false_ne_true, List.mem_singleton] at hword
      exact hword ▸ isWord_reverse hempty h
  | c :: rest, current, h, word, hword => by
    rw [wordsFrom] at hword
    by_cases hc : Text.isAlphanumeric c = true
    · rw [if_pos hc] at hword
      exact isWord_of_mem_wordsFrom (List.forall_mem_cons.2 ⟨hc, h⟩) word hword
    · rw [if_neg hc] at hword
      cases hempty : current.isEmpty with
      | true =>
        rw [hempty, if_pos rfl] at hword
        exact isWord_of_mem_wordsFrom (List.forall_mem_nil _) word hword
      | false =>
        rw [hempty, if_neg Bool.false_ne_true] at hword
        rcases List.mem_cons.1 hword with rfl | hword
        · exact isWord_reverse hempty h
        · exact isWord_of_mem_wordsFrom (List.forall_mem_nil _) word hword

theorem isWord_of_mem_words (h : word ∈ words name) : IsWord word := isWord_of_mem_wordsFrom (List.forall_mem_nil _) word h

/-- Words are read letter by letter. -/
theorem wordsFrom_append (rest : List Char) : ∀ {word current : List Char}, (∀ c ∈ word, Text.isAlphanumeric c = true) →
    wordsFrom current (word ++ rest) = wordsFrom (word.reverse ++ current) rest
  | [], _, _ => rfl
  | c :: word, current, h => by
    obtain ⟨hc, hword⟩ := List.forall_mem_cons.1 h
    rw [List.cons_append, wordsFrom, if_pos hc, wordsFrom_append rest hword, List.reverse_cons, List.append_assoc]
    rfl

theorem words_of_isWord (h : IsWord word) : words word = [word] := by
  have hwords : wordsFrom [] (word ++ []) = wordsFrom (word.reverse ++ []) [] := wordsFrom_append [] h.letters
  rw [List.append_nil, List.append_nil, wordsFrom, List.reverse_reverse] at hwords
  rw [words, hwords, if_neg]
  rw [List.isEmpty_reverse, List.isEmpty_iff]
  exact h.ne_nil

/-- What is no letter ends a word. -/
theorem words_append_cons (h : IsWord word) (hc : Text.isAlphanumeric c = false) :
    words (word ++ c :: rest) = word :: words rest := by
  rw [words, wordsFrom_append _ h.letters, List.append_nil, wordsFrom, if_neg (Bool.eq_false_iff.1 hc), if_neg,
    List.reverse_reverse]
  · rfl
  · rw [List.isEmpty_reverse, List.isEmpty_iff]
    exact h.ne_nil

/-- **The words of a name are its letters and digits.** -/
theorem flatten_wordsFrom : ∀ (rest current : List Char),
    (wordsFrom current rest).flatten = current.reverse ++ rest.filter Text.isAlphanumeric
  | [], current => by
    rw [wordsFrom]
    cases current <;> simp
  | c :: rest, current => by
    rw [wordsFrom]
    by_cases hc : Text.isAlphanumeric c = true
    · rw [if_pos hc, flatten_wordsFrom rest, List.filter_cons_of_pos hc, List.reverse_cons, List.append_assoc]
      rfl
    · rw [if_neg hc, List.filter_cons_of_neg hc]
      cases current with
      | nil => rw [List.isEmpty_nil, if_pos rfl, flatten_wordsFrom rest]
      | cons => rw [List.isEmpty_cons, if_neg Bool.false_ne_true, List.flatten_cons, flatten_wordsFrom rest]; rfl

theorem flatten_words (name : List Char) : (words name).flatten = name.filter Text.isAlphanumeric :=
  flatten_wordsFrom name []

/-! ## Camel case -/

section
variable {f : Char → List Char} {marked : List Char}

/-- A word begins with what its first letter is mapped to. -/
theorem mapFirst_image
    (hf : ∀ c, Text.isAlphanumeric c = true → ∃ first rest, f c = first :: rest ∧ Text.IsImage c first rest)
    (h : IsWord word) : ∃ c first rest, word.head? = some c ∧ (f c).head? = some first ∧
      mapFirst f word = first :: rest ∧ Text.IsImage c first rest := by
  cases word with
  | nil => exact absurd rfl h.ne_nil
  | cons c word =>
    obtain ⟨hc, hword⟩ := List.forall_mem_cons.1 h.letters
    obtain ⟨first, rest, himage, hfirst⟩ := hf c hc
    refine ⟨c, first, rest ++ word, rfl, by rw [himage, List.head?_cons], by rw [mapFirst, himage, List.cons_append],
      hfirst.letter, hfirst.digit, fun d hd => ?_⟩
    exact (List.mem_append.1 hd).elim (hfirst.rest d) fun hd => .inl (hword d hd)

theorem mapFirst_letters_iff (hf : ∀ c, Text.isAlphanumeric c = true →
      ((∀ d ∈ f c, Text.isAlphanumeric d = true) ↔ c ∉ marked)) (h : IsWord word) :
    (∀ d ∈ mapFirst f word, Text.isAlphanumeric d = true) ↔ ∀ c ∈ word.head?, c ∉ marked := by
  cases word with
  | nil => exact absurd rfl h.ne_nil
  | cons c word =>
    obtain ⟨hc, hword⟩ := List.forall_mem_cons.1 h.letters
    rw [mapFirst, List.forall_mem_append, hf c hc, List.head?_cons, and_iff_left hword]
    simp

end

/-- No word begins with a letter that brings in a mark as it changes case. -/
def Unmarked : List (List Char) → Prop
  | [] => True
  | word :: others => (∀ c ∈ word.head?, c ∉ Text.markedLowercase) ∧
    ∀ other ∈ others, ∀ c ∈ other.head?, c ∉ Text.markedUppercase

-- Only the first character of a word is looked at; a search through all characters would not end in time.
instance decidableBegins (word marked : List Char) : Decidable (∀ c ∈ word.head?, c ∉ marked) :=
  Option.decidableForallMem word.head?

instance : ∀ words : List (List Char), Decidable (Unmarked words)
  | [] => inferInstanceAs (Decidable True)
  | word :: others => inferInstanceAs (Decidable ((∀ c ∈ word.head?, c ∉ Text.markedLowercase) ∧
    ∀ other ∈ others, ∀ c ∈ other.head?, c ∉ Text.markedUppercase))

/-- **Words in camel case** are a letter or digit, with letters and marks behind it. -/
theorem camelCase_image (h : ∀ w ∈ word :: others, IsWord w) : ∃ c first rest,
    word.head? = some c ∧ Text.lowercase first = [first] ∧ camelCase (word :: others) = first :: rest ∧
      Text.IsImage c first rest := by
  obtain ⟨hword, hothers⟩ := List.forall_mem_cons.1 h
  obtain ⟨c, first, rest, hc, hlower, himage, hfirst⟩ := mapFirst_image (fun _ => Text.lowercase_image) hword
  refine ⟨c, first, rest ++ others.flatMap (mapFirst Text.uppercase), hc, Text.lowercase_of_lowercase hlower hfirst.letter,
    by rw [camelCase, himage, List.cons_append], hfirst.letter, hfirst.digit, fun d hd => ?_⟩
  rcases List.mem_append.1 hd with hd | hd
  · exact hfirst.rest d hd
  · obtain ⟨other, hother, hd⟩ := List.mem_flatMap.1 hd
    obtain ⟨_, start, more, -, -, himage, hstart⟩ := mapFirst_image (fun _ => Text.uppercase_image) (hothers other hother)
    rw [himage] at hd
    exact (List.mem_cons.1 hd).elim (fun heq => .inl (heq ▸ hstart.letter)) (hstart.rest d)

theorem camelCase_letters_iff {words : List (List Char)} (h : ∀ w ∈ words, IsWord w) :
    (∀ d ∈ camelCase words, Text.isAlphanumeric d = true) ↔ Unmarked words := by
  cases words with
  | nil => exact iff_of_true (List.forall_mem_nil _) trivial
  | cons word others =>
    obtain ⟨hword, hothers⟩ := List.forall_mem_cons.1 h
    rw [camelCase, List.forall_mem_append, mapFirst_letters_iff (fun _ => Text.lowercase_letters_iff) hword, Unmarked]
    refine and_congr_right fun _ => ?_
    rw [List.forall_mem_flatMap]
    exact forall₂_congr fun other hother =>
      mapFirst_letters_iff (fun _ => Text.uppercase_letters_iff) (hothers other hother)

/-! ### Once more -/

/-- A text has nothing but letters, or they end somewhere. -/
theorem letters_or_split : ∀ text : List Char, (∀ d ∈ text, Text.isAlphanumeric d = true) ∨
    ∃ word mark more, text = word ++ mark :: more ∧ (∀ d ∈ word, Text.isAlphanumeric d = true) ∧
      Text.isAlphanumeric mark = false
  | [] => .inl (List.forall_mem_nil _)
  | c :: text => by
    cases hc : Text.isAlphanumeric c with
    | false => exact .inr ⟨[], c, text, rfl, List.forall_mem_nil _, hc⟩
    | true =>
      rcases letters_or_split text with htext | ⟨word, mark, more, rfl, hword, hmark⟩
      · exact .inl (List.forall_mem_cons.2 ⟨hc, htext⟩)
      · exact .inr ⟨c :: word, mark, more, rfl, List.forall_mem_cons.2 ⟨hc, hword⟩, hmark⟩

theorem mapFirst_lowercase (hfinal : Text.lowercase first = [first]) (word : List Char) :
    mapFirst Text.lowercase (first :: word) = first :: word := by
  rw [mapFirst, hfinal, List.singleton_append]

/-- **What begins in lower case is its own camel case** exactly if it has nothing but letters: a mark is left out, and what
follows it begins with a letter again. -/
theorem camelCase_words_iff (hfirst : Text.isAlphanumeric first = true) (hfinal : Text.lowercase first = [first]) :
    camelCase (words (first :: rest)) = first :: rest ↔ ∀ d ∈ first :: rest, Text.isAlphanumeric d = true := by
  rcases letters_or_split (first :: rest) with hletters | ⟨word, mark, more, hsplit, hword, hmark⟩
  · refine iff_of_true ?_ hletters
    rw [words_of_isWord ⟨List.cons_ne_nil _ _, hletters⟩, camelCase, mapFirst_lowercase hfinal, List.flatMap_nil,
      List.append_nil]
  · have hmem : mark ∈ first :: rest := hsplit ▸ List.mem_append_right _ List.mem_cons_self
    refine iff_of_false (fun hsame => ?_) fun hletters => nomatch (hletters mark hmem).symm.trans hmark
    cases word with
    | nil =>
      obtain ⟨rfl, -⟩ := List.cons.inj hsplit
      exact nomatch hfirst.symm.trans hmark
    | cons c word =>
      obtain ⟨rfl, -⟩ := List.cons.inj hsplit
      rw [hsplit, words_append_cons ⟨List.cons_ne_nil _ _, hword⟩ hmark, camelCase, mapFirst_lowercase hfinal] at hsame
      have hrest := List.append_cancel_left hsame
      cases hmore : words more with
      | nil =>
        rw [hmore] at hrest
        cases hrest
      | cons other others =>
        have hother : IsWord other := isWord_of_mem_words (hmore.symm ▸ List.mem_cons_self : other ∈ words more)
        obtain ⟨_, start, _, -, -, himage, hstart⟩ := mapFirst_image (fun _ => Text.uppercase_image) hother
        rw [hmore, List.flatMap_cons, himage] at hrest
        obtain ⟨rfl, -⟩ := List.cons.inj hrest
        exact nomatch hstart.letter.symm.trans hmark

/-! ## Identifiers -/

theorem startsWithDigit_guardDigit (text : List Char) : startsWithDigit (guardDigit text) = false := by
  unfold guardDigit
  split
  · rfl
  · rename_i h
    exact Bool.eq_false_iff.2 h

/-- The underscore is no letter. -/
theorem words_guardDigit (text : List Char) : words (guardDigit text) = words text := by
  unfold guardDigit
  split
  · have hunderscore : Text.isAlphanumeric '_' = false := by decide +kernel
    rw [words, wordsFrom, if_neg (Bool.eq_false_iff.1 hunderscore), List.isEmpty_nil, if_pos rfl, words]
  · rfl

theorem dropWhile_guardDigit (hfirst : Text.isAlphanumeric first = true) (rest : List Char) :
    (guardDigit (first :: rest)).dropWhile (· = '_') = first :: rest := by
  have hunderscore : ¬ first = '_' := by
    rintro rfl
    exact nomatch hfirst.symm.trans (by decide +kernel : Text.isAlphanumeric '_' = false)
  unfold guardDigit
  split
  · rw [List.dropWhile_cons_of_pos (by simp), List.dropWhile_cons_of_neg (by simpa using hunderscore)]
  · rw [List.dropWhile_cons_of_neg (by simpa using hunderscore)]

theorem identifier?_eq_some_iff {name identifier : String} : identifier? name = some identifier ↔
    words name.toList ≠ [] ∧ identifier.toList = guardDigit (camelCase (words name.toList)) := by
  unfold identifier?
  split
  · rename_i hnone
    simp [hnone]
  · rename_i hsome
    rw [Option.some.injEq, ← String.toList_inj, String.toList_ofList, eq_comm]
    exact (and_iff_right hsome).symm

/-- What a name's identifier is made of. -/
theorem identifier?_image {name identifier : String} (h : identifier? name = some identifier) : ∃ c first rest,
    name.toList.find? Text.isAlphanumeric = some c ∧ Text.lowercase first = [first] ∧
      camelCase (words name.toList) = first :: rest ∧ identifier.toList = guardDigit (first :: rest) ∧
      Text.IsImage c first rest := by
  obtain ⟨hwords, hidentifier⟩ := identifier?_eq_some_iff.1 h
  cases hall : words name.toList with
  | nil => exact absurd hall hwords
  | cons word others =>
    have hisWord : ∀ w ∈ word :: others, IsWord w := fun w hw => isWord_of_mem_words (hall ▸ hw)
    obtain ⟨c, first, rest, hc, hfinal, himage, hfirst⟩ := camelCase_image hisWord
    refine ⟨c, first, rest, ?_, hfinal, himage, by rw [hidentifier, hall, himage], hfirst⟩
    rw [← List.head?_filter, ← flatten_words, hall, List.flatten_cons, List.head?_append, hc, Option.some_or]

/-- **An identifier is its own identifier** exactly if its text is its own camel case. -/
theorem identifier?_self_iff {identifier : String} (hfirst : Text.isAlphanumeric first = true)
    (hidentifier : identifier.toList = guardDigit (first :: rest)) :
    identifier? identifier = some identifier ↔ camelCase (words (first :: rest)) = first :: rest := by
  rw [identifier?_eq_some_iff, hidentifier, words_guardDigit]
  cases hall : words (first :: rest) with
  | nil =>
    refine iff_of_false (fun h => h.1 rfl) fun h => ?_
    cases h
  | cons word others =>
    rw [and_iff_right (List.cons_ne_nil _ _)]
    have hisWord : ∀ w ∈ word :: others, IsWord w := fun w hw => isWord_of_mem_words (hall ▸ hw)
    obtain ⟨_, start, more, -, -, himage, hstart⟩ := camelCase_image hisWord
    rw [himage]
    refine ⟨fun h => ?_, fun h => by rw [h]⟩
    rw [← dropWhile_guardDigit hstart.letter, ← h, dropWhile_guardDigit hfirst]

/-- **Identifiers are well formed but for the marks of case mappings.**  A name without letters and digits has none.  Any
other one has a letter or digit with letters, digits and such marks behind it, after an underscore if it is an ASCII digit;
so no identifier begins with one.  There are no marks exactly if no word of the name begins with a letter that brings one
in, and exactly then the identifier is its own identifier. -/
theorem identifier?_wellFormed (name : String) :
    (identifier? name = none ↔ ∀ c ∈ name.toList, Text.isAlphanumeric c = false) ∧
    ∀ identifier, identifier? name = some identifier → ∃ first rest,
      identifier.toList = (if first.isDigit then '_' :: first :: rest else first :: rest) ∧
      startsWithDigit identifier.toList = false ∧
      Text.isAlphanumeric first = true ∧ (∀ c ∈ rest, Text.isAlphanumeric c = true ∨ c ∈ Text.caseMarks) ∧
      ((∀ c ∈ rest, Text.isAlphanumeric c = true) ↔ Unmarked (words name.toList)) ∧
      (identifier? identifier = some identifier ↔ Unmarked (words name.toList)) := by
  refine ⟨?_, fun identifier h => ?_⟩
  · rw [← Option.not_isSome_iff_eq_none]
    exact (not_congr hasIdentifier_iff).trans (by simp)
  · obtain ⟨c, first, rest, -, hfinal, htext, hidentifier, hfirst⟩ := identifier?_image h
    have hletters : (∀ d ∈ first :: rest, Text.isAlphanumeric d = true) ↔ Unmarked (words name.toList) :=
      htext ▸ camelCase_letters_iff fun w hw => isWord_of_mem_words hw
    refine ⟨first, rest, hidentifier, hidentifier ▸ startsWithDigit_guardDigit _, hfirst.letter, hfirst.rest, ?_, ?_⟩
    · rw [← hletters, List.forall_mem_cons, and_iff_right hfirst.letter]
    · rw [identifier?_self_iff hfirst.letter hidentifier, camelCase_words_iff hfirst.letter hfinal, hletters]

/-- Words that begin with a digit, and with a letter whose upper case is two letters. -/
theorem identifier?_wellFormed_expanded : identifier? "12 ßa-ǆb" = some "_12SSaǄb" ∧
    identifier? "_12SSaǄb" = some "_12SSaǄb" := by
  have h : identifier? "12 ßa-ǆb" = some "_12SSaǄb" := by decide +kernel
  obtain ⟨_, _, -, -, -, -, -, hself⟩ := (identifier?_wellFormed "12 ßa-ǆb").2 _ h
  exact ⟨h, hself.2 (by decide +kernel)⟩

/-- **An identifier may hold a mark**, and then has another identifier: the lower case of the dotted capital I is an i with
a dot, which is no letter. -/
theorem not_forall_identifier? : ¬ ∀ name identifier, identifier? name = some identifier →
    (∃ text, text ≠ [] ∧ (identifier.toList = text ∨ identifier.toList = '_' :: text) ∧
      ∀ c ∈ text, Text.isAlphanumeric c = true) ∧ identifier? identifier = some identifier := by
  intro h
  have hdotted : identifier? "\u0130" = some "i\u0307" ∧ identifier? "i\u0307" = some "i" := by decide +kernel
  have hself := (h _ _ hdotted.1).2
  exact absurd (hdotted.2.symm.trans hself) (by decide)

end SchemaTypes.Naming

import SchemaTypes.Naming.Source
import SchemaTypes.Proofs.Naming.WellFormed
/-!
# Class names of documents

The class of a document or a definition is named after its `$id`, its title, the property that refers to it, or its file.
The name is the identifier of that text without the underscore, and with its first letter in upper case.  So it is never
empty, but without the underscore an ASCII digit comes first wherever it is the first letter or digit of the text
(`Naming.standard_namedAfter`, `Naming.not_forall_standard`).
-/
namespace SchemaTypes.Naming

/-- The first letter or digit of a text, or that of the name which stands in for it. -/
def initial (text : String) : Char := (text.toList.find? Text.isAlphanumeric).getD 'T'

theorem pascalCase_image (text : String) : ∃ first rest,
    (pascalCase text).toList = first :: rest ∧ Text.IsImage (initial text) first rest := by
  unfold pascalCase initial
  cases hidentifier : identifier? text with
  | none =>
    have hnone : text.toList.find? Text.isAlphanumeric = none := by
      rw [List.find?_eq_none]
      intro c hc hletter
      have hsome := hasIdentifier_iff.2 ⟨c, hc, hletter⟩
      rw [HasIdentifier, hidentifier] at hsome
      cases hsome
    have hletters : ['y', 'p', 'e'].all Text.isAlphanumeric = true := by decide +kernel
    rw [hnone]
    refine ⟨'T', ['y', 'p', 'e'], by decide +kernel, ?_⟩
    exact ⟨by decide +kernel, rfl, fun d hd => .inl (List.all_eq_true.1 hletters d hd)⟩
  | some identifier =>
    obtain ⟨c, first, rest, hc, -, -, htext, hfirst⟩ := identifier?_image hidentifier
    obtain ⟨start, more, hupper, hstart⟩ := Text.uppercase_image hfirst.letter
    simp only [Option.getD_some, htext, dropWhile_guardDigit hfirst.letter, hc]
    refine ⟨start, more ++ rest, ?_, hstart.letter, hstart.digit.trans hfirst.digit, fun d hd => ?_⟩
    · rw [String.toList_ofList, mapFirst, hupper, List.cons_append]
    · exact (List.mem_append.1 hd).elim (hstart.rest d) (hfirst.rest d)

/-- A name made from the text: a letter or digit with letters, digits and the marks of case mappings behind it, of which an
ASCII digit comes first exactly if it is the first letter or digit of the text. -/
def NamedAfter (text name : String) : Prop := ∃ first rest, name.toList = first :: rest ∧
  Text.isAlphanumeric first = true ∧ (∀ c ∈ rest, Text.isAlphanumeric c = true ∨ c ∈ Text.caseMarks) ∧
  (startsWithDigit name.toList = true ↔ ∃ c, text.toList.find? Text.isAlphanumeric = some c ∧ c.isDigit = true)

theorem pascalCase_namedAfter (text : String) : NamedAfter text (pascalCase text) := by
  obtain ⟨first, rest, hname, hfirst⟩ := pascalCase_image text
  refine ⟨first, rest, hname, hfirst.letter, hfirst.rest, ?_⟩
  rw [hname, startsWithDigit, hfirst.digit, initial]
  cases text.toList.find? Text.isAlphanumeric with
  | none => exact iff_of_false (by decide) fun ⟨_, h, _⟩ => nomatch h
  | some c => simp

theorem standard_document (property : String) (node : Json) (merged : Bool) :
    standard property node merged "" = pascalCase (base property node) := by
  unfold standard
  exact if_pos (String.isEmpty_iff.2 rfl)

/-- At the top of a document every class gets an identifier. -/
theorem carriesInto_standard : standard.CarriesInto "" := by
  intro property node merged
  obtain ⟨first, rest, hname, hfirst⟩ := pascalCase_image (base property node)
  rw [standard_document]
  exact hasIdentifier_iff.2 ⟨first, hname ▸ List.mem_cons_self, hfirst.letter⟩

theorem base_null (property : String) : base property .null = property := rfl

/-- **Class names of documents and definitions** are never empty, and begin with an ASCII digit exactly if it is the first
letter or digit of what they are named after: the `$id`, the title or the property of a node, or the stem of a file. -/
theorem standard_namedAfter (property : String) (node : Json) (merged : Bool) (path namespaceName : String) :
    NamedAfter (base property node) (standard property node merged "") ∧
      NamedAfter (String.ofList (Source.stem ((Source.fileName? path.toList).getD [])))
        (Source.ofPath path namespaceName).className := by
  refine ⟨?_, ?_⟩
  · rw [standard_document]
    exact pascalCase_namedAfter _
  · unfold Source.ofPath
    simp only [standard_document, base_null]
    exact pascalCase_namedAfter _

/-- **A class name may begin with a digit**: the underscore before it is left out. -/
theorem not_forall_standard : ¬ ∀ property node merged, standard property node merged "" ≠ "" ∧
    startsWithDigit (standard property node merged "").toList = false := by
  intro h
  have hdigit : standard "12 monkeys" (.object []) false "" = "12Monkeys" := by decide +kernel
  have hnone := (h "12 monkeys" (.object []) false).2
  rw [hdigit] at hnone
  exact absurd hnone (by decide +kernel)

end SchemaTypes.Naming

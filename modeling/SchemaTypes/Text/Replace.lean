/-!
# Replacing parts of a text

`replaceAll` goes from left to right and never looks at a replacement again, so the places it
replaces do not overlap.  `splitAt` cuts a text at every separator.
-/
namespace SchemaTypes.Text

/-- Replace, after skipping `skipped` characters of an occurrence that has been replaced already. -/
def replaceFrom (needle replacement : List Char) : (skipped : Nat) → List Char → List Char
  | _, [] => []
  | skipped + 1, _ :: rest => replaceFrom needle replacement skipped rest
  | 0, c :: rest =>
    if needle.isPrefixOf (c :: rest) then
      replacement ++ replaceFrom needle replacement (needle.length - 1) rest
    else c :: replaceFrom needle replacement 0 rest

/-- Replace every occurrence of a needle that is not empty. -/
def replaceAll (needle replacement text : List Char) : List Char :=
  replaceFrom needle replacement 0 text

/-- Where the first character of the needle does not occur, nothing is replaced. -/
theorem replaceAll_of_not_mem {c : Char} {text : List Char} (needle replacement : List Char)
    (h : c ∉ text) : replaceAll (c :: needle) replacement text = text := by
  unfold replaceAll
  induction text with
  | nil => rfl
  | cons d rest ih =>
    rw [List.mem_cons, not_or] at h
    have hd : (c == d) = false := by simpa using h.1
    simp [replaceFrom, List.isPrefixOf, hd, ih h.2]

/-- The parts between the separators: always one more than there are separators. -/
def splitAt (separator : Char) : List Char → List (List Char)
  | [] => [[]]
  | c :: rest =>
    if c = separator then [] :: splitAt separator rest
    else match splitAt separator rest with
      | [] => [[c]]
      | part :: parts => (c :: part) :: parts

theorem splitAt_ne_nil (separator : Char) (text : List Char) : splitAt separator text ≠ [] := by
  cases text with
  | nil => simp [splitAt]
  | cons c rest =>
    unfold splitAt
    split
    · simp
    · split <;> simp

/-- The part behind the last separator. -/
def lastPart (separator : Char) (text : List Char) : List Char :=
  ((splitAt separator text).getLast?).getD []

/-- The part before the first separator. -/
def firstPart (separator : Char) (text : List Char) : List Char := text.takeWhile (· ≠ separator)

/-- The text without the given characters at its end. -/
def trimEnd (mark : Char) (text : List Char) : List Char := (text.reverse.dropWhile (· = mark)).reverse

end SchemaTypes.Text

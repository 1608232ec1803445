import SchemaTypes.Proofs.Text.Utf8
import SchemaTypes.Text.Alphanumeric
import SchemaTypes.Text.LetterCase
/-!
# Case mappings of letters and digits

What a letter or digit is mapped to begins with a letter or digit, an ASCII digit exactly if it is one.  What follows are
letters and combining marks (`Text.lowercase_image`, `Text.uppercase_image`).  The marks are neither letters nor digits, and
few characters are mapped to one: a single capital has it in its lower case, and some small letters have it in their upper
case (`Text.lowercase_letters_iff`, `Text.uppercase_letters_iff`).

A character that a lower case begins with is its own lower case (`Text.lowercase_of_lowercase`).

All of this is read off the tables, in which a run is compared with a range or another run as a whole.
-/
namespace SchemaTypes.Text

/-- The combining marks that case mappings bring in. -/
def caseMarks : List Char :=
  ['\u0300', '\u0301', '\u0307', '\u0308', '\u030a', '\u030c', '\u0313', '\u0331', '\u0342']

/-- The letters whose lower case has a mark. -/
def markedLowercase : List Char := ['\u0130']

/-- The letters whose upper case has a mark. -/
def markedUppercase : List Char :=
  ['\u01f0', '\u0390', '\u03b0', '\u1e96', '\u1e97', '\u1e98', '\u1e99', '\u1f50', '\u1f52', '\u1f54', '\u1f56',
   '\u1fb6', '\u1fb7', '\u1fc6', '\u1fc7', '\u1fd2', '\u1fd3', '\u1fd6', '\u1fd7', '\u1fe2', '\u1fe3', '\u1fe4',
   '\u1fe6', '\u1fe7', '\u1ff6', '\u1ff7']

variable {runs : List CaseRun} {expansions : List (Nat × List Nat)} {marked : List Char} {run other : CaseRun}
  {code : Nat} {c : Char}

/-! ## Runs -/

namespace Ranges

/-- Whether a single range holds all from `low` to `high`. -/
def covers : Ranges → (low high : Nat) → Bool
  | [], _, _ => false
  | range :: rest, low, high =>
    Nat.ble range.1 low && bif Nat.ble low range.2 then Nat.ble high range.2 else covers rest low high

theorem contains_of_covers {low high : Nat} (hlow : low ≤ code) (hhigh : code ≤ high) :
    ∀ {ranges : Ranges}, ranges.covers low high = true → ranges.contains code = true
  | [], h => nomatch h
  | (first, last) :: rest, h => by
    obtain ⟨hfirst, h⟩ := Bool.and_eq_true_iff.1 h
    have hfirst : first ≤ low := Nat.le_of_ble_eq_true hfirst
    rw [contains, if_neg (by omega)]
    cases hlast : Nat.ble low last with
    | true =>
      rw [hlast, cond_true] at h
      have hend : high ≤ last := Nat.le_of_ble_eq_true h
      rw [if_pos (by omega)]
    | false =>
      rw [hlast, cond_false] at h
      have hbeyond : last < low := Nat.lt_of_not_le fun hle => nomatch (Nat.ble_eq_true_of_le hle).symm.trans hlast
      rw [if_neg (by omega)]
      exact contains_of_covers hlow hhigh h

theorem exists_of_contains : ∀ {ranges : Ranges}, ranges.contains code = true →
    ∃ range ∈ ranges, range.1 ≤ code ∧ code ≤ range.2
  | [], h => nomatch h
  | (first, last) :: rest, h => by
    rw [contains] at h
    split at h
    · cases h
    · split at h
      · exact ⟨_, List.mem_cons_self, by omega, by omega⟩
      · obtain ⟨range, hrange, hbetween⟩ := exists_of_contains h
        exact ⟨range, List.mem_cons_of_mem _ hrange, hbetween⟩

end Ranges

namespace CaseRun

/-- The least code point that the run maps to. -/
def low (run : CaseRun) : Nat := (run.first + run.offset).toNat

/-- The greatest code point that the run maps to. -/
def high (run : CaseRun) : Nat := (run.last + run.offset).toNat

/-- Where the run maps to, one by one. -/
def images (run : CaseRun) : List Nat :=
  (List.range ((run.last - run.first) / run.step + 1)).map fun n : Nat =>
    ((run.first + n * run.step : Nat) + run.offset).toNat

/-- Whether what the run maps to lies in the set: in one range, or point by point. -/
def mapsInto (run : CaseRun) (ranges : Ranges) : Bool :=
  ranges.covers run.low run.high || run.images.all ranges.contains

/-- Whether the other run covers nothing that this one maps to: they are away from each other, or alternate. -/
def isApart (run other : CaseRun) : Bool :=
  Nat.blt run.high other.first || Nat.blt other.last run.low ||
    (Nat.beq other.step 2 && (Nat.beq run.step 2 || Nat.beq run.first run.last) &&
      !Nat.beq (run.low % 2) (other.first % 2))

theorem covers_iff : run.covers code = true ↔
    run.first ≤ code ∧ code ≤ run.last ∧ (code - run.first) % run.step = 0 := by
  rw [covers, Bool.and_eq_true, Bool.and_eq_true, decide_eq_true_iff, decide_eq_true_iff, beq_iff_eq, and_assoc]

theorem mem_images (h : run.covers code = true) : (code + run.offset).toNat ∈ run.images := by
  obtain ⟨hfirst, hlast, hstep⟩ := covers_iff.1 h
  have hsteps : code = run.first + (code - run.first) / run.step * run.step := by
    rw [Nat.div_mul_cancel (Nat.dvd_of_mod_eq_zero hstep)]
    omega
  refine List.mem_map.2 ⟨(code - run.first) / run.step, List.mem_range.2 (Nat.lt_succ_of_le ?_), ?_⟩
  · exact Nat.div_le_div_right (by omega)
  · rw [← hsteps]

theorem between (h : run.covers code = true) :
    run.low ≤ (code + run.offset).toNat ∧ (code + run.offset).toNat ≤ run.high := by
  obtain ⟨hfirst, hlast, -⟩ := covers_iff.1 h
  unfold low high
  omega

theorem contains_of_mapsInto {ranges : Ranges} (hinto : run.mapsInto ranges = true) (h : run.covers code = true) :
    ranges.contains (code + run.offset).toNat = true := by
  rcases Bool.or_eq_true_iff.1 hinto with hrange | hpoints
  · exact Ranges.contains_of_covers (between h).1 (between h).2 hrange
  · exact List.all_eq_true.1 hpoints _ (mem_images h)

theorem not_covers_of_isApart (hapart : run.isApart other = true) (hstart : 0 ≤ run.first + run.offset)
    (h : run.covers code = true) : other.covers (code + run.offset).toNat = false := by
  obtain ⟨hlow, hhigh⟩ := between h
  obtain ⟨hfirst, hlast, hstep⟩ := covers_iff.1 h
  refine Bool.eq_false_iff.2 fun hother => ?_
  obtain ⟨hofirst, holast, hostep⟩ := covers_iff.1 hother
  rcases Bool.or_eq_true_iff.1 hapart with haway | halternate
  · rcases Bool.or_eq_true_iff.1 haway with hbelow | habove
    · have hbelow : run.high < other.first := Nat.le_of_ble_eq_true hbelow
      omega
    · have habove : other.last < run.low := Nat.le_of_ble_eq_true habove
      omega
  · obtain ⟨hsteps, hodd⟩ := Bool.and_eq_true_iff.1 halternate
    obtain ⟨htwo, hone⟩ := Bool.and_eq_true_iff.1 hsteps
    rw [Nat.eq_of_beq_eq_true htwo] at hostep
    have heven : (code - run.first) % 2 = 0 := by
      rcases Bool.or_eq_true_iff.1 hone with htwo | hsingle
      · rw [← Nat.eq_of_beq_eq_true htwo]
        exact hstep
      · have hsingle : run.first = run.last := Nat.eq_of_beq_eq_true hsingle
        omega
    have hodd : run.low % 2 ≠ other.first % 2 := fun heq => by
      rw [heq, Nat.beq_refl] at hodd
      cases hodd
    unfold low at hodd
    omega

end CaseRun

/-! ## Code points of letters and marks -/

/-- The code point is that of a letter or digit, or of a combining mark that case mappings bring in. -/
def IsLetterOrMark (code : Nat) : Prop := alphanumericRanges.contains code = true ∨ ∃ mark ∈ caseMarks, mark.toNat = code

theorem isValidChar_of_contains (h : alphanumericRanges.contains code = true) : code.isValidChar := by
  have hranges : (alphanumericRanges.all fun range =>
      Nat.blt range.2 0xD800 || (Nat.blt 0xDFFF range.1 && Nat.blt range.2 0x110000)) = true := by
    decide +kernel
  obtain ⟨range, hrange, hfirst, hlast⟩ := Ranges.exists_of_contains h
  rcases Bool.or_eq_true_iff.1 (List.all_eq_true.1 hranges range hrange) with hbelow | habove
  · have hbelow : range.2 < 0xD800 := Nat.le_of_ble_eq_true hbelow
    exact .inl (by omega)
  · obtain ⟨habove, hlimit⟩ := Bool.and_eq_true_iff.1 habove
    have habove : 0xDFFF < range.1 := Nat.le_of_ble_eq_true habove
    have hlimit : range.2 < 0x110000 := Nat.le_of_ble_eq_true hlimit
    exact .inr ⟨by omega, by omega⟩

theorem toNat_ofNat_of_isLetterOrMark (h : IsLetterOrMark code) : (Char.ofNat code).toNat = code := by
  rcases h with h | ⟨mark, -, rfl⟩
  · exact Utf8.toNat_ofNat (isValidChar_of_contains h)
  · rw [Char.ofNat_toNat]

theorem isAlphanumeric_ofNat (h : IsLetterOrMark code) :
    isAlphanumeric (Char.ofNat code) = alphanumericRanges.contains code := by
  rw [isAlphanumeric, toNat_ofNat_of_isLetterOrMark h]

theorem toNat_ofNat_of_isAlphanumeric (h : isAlphanumeric (Char.ofNat code) = true) : (Char.ofNat code).toNat = code := by
  by_cases hvalid : code.isValidChar
  · exact Utf8.toNat_ofNat hvalid
  · have hnull : Char.ofNat code = '\u0000' := dif_neg hvalid
    rw [hnull] at h
    exact nomatch h.symm.trans (by decide +kernel : isAlphanumeric '\u0000' = false)

/-! ## Tables -/

/-- Whether the run neither covers an ASCII digit nor maps to one, and maps to letters. -/
def CaseRun.isLettered (run : CaseRun) : Bool :=
  Nat.blt 0x39 run.first && Nat.blt 0x39 run.low && run.mapsInto alphanumericRanges

/-- Whether what the code point is expanded to is a letter with letters and marks behind it. -/
def isExpansion (entry : Nat × List Nat) : Bool :=
  match entry.2 with
  | [] => false
  | first :: rest => Nat.blt 0x39 entry.1 && Nat.blt 0x39 first && alphanumericRanges.contains first &&
    rest.all fun code => alphanumericRanges.contains code || (caseMarks.map Char.toNat).contains code

theorem exists_of_isExpansion {image : List Nat} (h : isExpansion (code, image) = true) : ∃ first rest,
    image = first :: rest ∧ 0x39 < code ∧ 0x39 < first ∧ alphanumericRanges.contains first = true ∧
      ∀ code ∈ rest, IsLetterOrMark code := by
  cases image with
  | nil => cases h
  | cons first rest =>
    obtain ⟨h, hrest⟩ := Bool.and_eq_true_iff.1 h
    obtain ⟨h, hfirst⟩ := Bool.and_eq_true_iff.1 h
    obtain ⟨hkey, hbeyond⟩ := Bool.and_eq_true_iff.1 h
    refine ⟨first, rest, rfl, Nat.le_of_ble_eq_true hkey, Nat.le_of_ble_eq_true hbeyond, hfirst, fun code hcode => ?_⟩
    refine (Bool.or_eq_true_iff.1 (List.all_eq_true.1 hrest code hcode)).imp id fun hmark => ?_
    obtain ⟨mark, hmark, hcode⟩ := List.mem_map.1 (List.contains_iff_mem.1 hmark)
    exact ⟨mark, hmark, hcode⟩

/-- What is known of the tables of a case mapping.  An expansion has a mark exactly if the character is listed. -/
structure Lettered (runs : List CaseRun) (expansions : List (Nat × List Nat)) (marked : List Char) : Prop where
  run : ∀ run ∈ runs, run.isLettered = true
  expansion : ∀ entry ∈ expansions, isExpansion entry = true
  letters : ∀ entry ∈ expansions,
    entry.2.all alphanumericRanges.contains = !(marked.map Char.toNat).contains entry.1
  marked : ∀ c ∈ marked, (expansions.lookup c.toNat).isSome = true

theorem lettered_lowercase : Lettered lowercaseRuns lowercaseExpansions markedLowercase where
  run := List.all_eq_true.1 (by decide +kernel)
  expansion := List.all_eq_true.1 (by decide +kernel)
  letters := by decide +kernel
  marked := List.all_eq_true.1 (by decide +kernel)

theorem lettered_uppercase : Lettered uppercaseRuns uppercaseExpansions markedUppercase where
  run := List.all_eq_true.1 (by decide +kernel)
  expansion := List.all_eq_true.1 (by decide +kernel)
  letters := by decide +kernel
  marked := List.all_eq_true.1 (by decide +kernel)

/-- What the tables say of one character. -/
theorem mapCase_cases (runs : List CaseRun) (expansions : List (Nat × List Nat)) (code : Nat) :
    (code, mapCase runs expansions code) ∈ expansions ∨
      expansions.lookup code = none ∧
        ((∃ run ∈ runs, run.covers code = true ∧ mapCase runs expansions code = [(code + run.offset).toNat]) ∨
          mapCase runs expansions code = [code]) := by
  unfold mapCase
  split
  · rename_i image himage
    obtain ⟨before, after, hsplit, -⟩ := List.lookup_eq_some_iff.1 himage
    exact .inl (hsplit ▸ List.mem_append_right _ List.mem_cons_self)
  · rename_i hnone
    refine .inr ⟨hnone, ?_⟩
    split
    · rename_i run hrun
      have hcovers := List.find?_some hrun
      exact .inl ⟨run, List.mem_of_find?_eq_some hrun, hcovers, rfl⟩
    · exact .inr rfl

/-- What a letter or digit may be mapped to: an ASCII digit only if it is one, with letters and marks behind it. -/
structure IsImage (c first : Char) (rest : List Char) : Prop where
  letter : isAlphanumeric first = true
  digit : first.isDigit = c.isDigit
  rest : ∀ d ∈ rest, isAlphanumeric d = true ∨ d ∈ caseMarks

theorem isImage_self (hc : isAlphanumeric c = true) : IsImage c c [] := ⟨hc, rfl, nofun⟩

/-- Beyond the ASCII digits, all that counts is the letter. -/
theorem isImage_of_beyond {first : Nat} {rest : List Nat} (hc : 0x39 < c.toNat) (hbeyond : 0x39 < first)
    (hfirst : alphanumericRanges.contains first = true) (hrest : ∀ code ∈ rest, IsLetterOrMark code) :
    IsImage c (Char.ofNat first) (rest.map Char.ofNat) where
  letter := (isAlphanumeric_ofNat (.inl hfirst)).trans hfirst
  digit := by
    have hnone : ∀ d : Char, 0x39 < d.toNat → d.isDigit = false := fun d hd =>
      Bool.eq_false_iff.2 fun hdigit => absurd (Char.isDigit_iff_toNat.1 hdigit).2 (Nat.not_le_of_lt hd)
    rw [hnone c hc, hnone _ (by rwa [toNat_ofNat_of_isLetterOrMark (.inl hfirst)])]
  rest d hd := by
    obtain ⟨code, hcode, rfl⟩ := List.mem_map.1 hd
    rcases hrest code hcode with hletter | ⟨mark, hmark, rfl⟩
    · exact .inl ((isAlphanumeric_ofNat (.inl hletter)).trans hletter)
    · rw [Char.ofNat_toNat]
      exact .inr hmark

theorem CaseRun.exists_of_isLettered (h : run.isLettered = true) (hcovers : run.covers code = true) : 0x39 < code ∧
    0x39 < (code + run.offset).toNat ∧ alphanumericRanges.contains (code + run.offset).toNat = true := by
  obtain ⟨h, hinto⟩ := Bool.and_eq_true_iff.1 h
  obtain ⟨hfirst, hlow⟩ := Bool.and_eq_true_iff.1 h
  have hfirst : 0x39 < run.first := Nat.le_of_ble_eq_true hfirst
  have hlow : 0x39 < run.low := Nat.le_of_ble_eq_true hlow
  exact ⟨Nat.lt_of_lt_of_le hfirst (covers_iff.1 hcovers).1, Nat.lt_of_lt_of_le hlow (between hcovers).1,
    contains_of_mapsInto hinto hcovers⟩

namespace Lettered

variable (h : Lettered runs expansions marked) (hc : isAlphanumeric c = true)
include h hc

theorem exists_image : ∃ first rest,
    (mapCase runs expansions c.toNat).map Char.ofNat = first :: rest ∧ IsImage c first rest := by
  rcases mapCase_cases runs expansions c.toNat with hentry | ⟨-, ⟨run, hrun, hcovers, himage⟩ | himage⟩
  · obtain ⟨first, rest, himage, hkey, hbeyond, hfirst, hrest⟩ := exists_of_isExpansion (h.expansion _ hentry)
    exact ⟨_, _, congrArg _ himage, isImage_of_beyond hkey hbeyond hfirst hrest⟩
  · obtain ⟨hcode, hbeyond, hfirst⟩ := CaseRun.exists_of_isLettered (h.run run hrun) hcovers
    exact ⟨_, _, congrArg _ himage, isImage_of_beyond hcode hbeyond hfirst nofun⟩
  · refine ⟨_, _, congrArg _ himage, ?_⟩
    rw [Char.ofNat_toNat]
    exact isImage_self hc

theorem letters_iff : (∀ d ∈ (mapCase runs expansions c.toNat).map Char.ofNat, isAlphanumeric d = true) ↔ c ∉ marked := by
  rcases mapCase_cases runs expansions c.toNat with hentry | ⟨hnone, hrest⟩
  · obtain ⟨first, rest, himage, -, -, hfirst, hrest⟩ := exists_of_isExpansion (h.expansion _ hentry)
    have hcodes : ∀ code ∈ mapCase runs expansions c.toNat, IsLetterOrMark code := by
      rw [himage]
      exact List.forall_mem_cons.2 ⟨.inl hfirst, hrest⟩
    have hmarked : c ∈ marked ↔ (marked.map Char.toNat).contains c.toNat = true := by
      rw [List.contains_iff_mem, List.mem_map]
      exact ⟨fun hc => ⟨c, hc, rfl⟩, fun ⟨d, hd, hsame⟩ => Char.toNat_inj.1 hsame ▸ hd⟩
    rw [hmarked, Bool.not_eq_true, ← Bool.not_eq_true', ← h.letters _ hentry, List.all_eq_true, List.forall_mem_map]
    exact forall₂_congr fun code hcode => by rw [isAlphanumeric_ofNat (hcodes code hcode)]
  · have hunmarked : c ∉ marked := fun hmarked => by
      have hsome := h.marked c hmarked
      rw [hnone] at hsome
      cases hsome
    refine iff_of_true ?_ hunmarked
    rcases hrest with ⟨run, hrun, hcovers, himage⟩ | himage
    · obtain ⟨-, -, hletter⟩ := CaseRun.exists_of_isLettered (h.run run hrun) hcovers
      rw [himage, List.map_singleton, List.forall_mem_singleton, isAlphanumeric_ofNat (.inl hletter)]
      exact hletter
    · rw [himage, List.map_singleton, List.forall_mem_singleton, Char.ofNat_toNat]
      exact hc

end Lettered

/-! ## Lower and upper case -/

theorem lowercase_image (hc : isAlphanumeric c = true) : ∃ first rest, lowercase c = first :: rest ∧ IsImage c first rest :=
  lettered_lowercase.exists_image hc

theorem uppercase_image (hc : isAlphanumeric c = true) : ∃ first rest, uppercase c = first :: rest ∧ IsImage c first rest :=
  lettered_uppercase.exists_image hc

/-- A single capital has a mark in its lower case. -/
theorem lowercase_letters_iff (hc : isAlphanumeric c = true) :
    (∀ d ∈ lowercase c, isAlphanumeric d = true) ↔ c ∉ markedLowercase :=
  lettered_lowercase.letters_iff hc

theorem uppercase_letters_iff (hc : isAlphanumeric c = true) :
    (∀ d ∈ uppercase c, isAlphanumeric d = true) ↔ c ∉ markedUppercase :=
  lettered_uppercase.letters_iff hc

/-- Whether what the run maps to is mapped to itself. -/
def CaseRun.isFinal (runs : List CaseRun) (expansions : List (Nat × List Nat)) (run : CaseRun) : Bool :=
  decide (0 ≤ run.first + run.offset) && runs.all run.isApart &&
    expansions.all fun entry => Nat.blt run.high entry.1 || Nat.blt entry.1 run.low

theorem CaseRun.mapCase_of_isFinal (h : run.isFinal runs expansions = true) (hcovers : run.covers code = true) :
    mapCase runs expansions (code + run.offset).toNat = [(code + run.offset).toNat] := by
  obtain ⟨h, hexpansions⟩ := Bool.and_eq_true_iff.1 h
  obtain ⟨hstart, hapart⟩ := Bool.and_eq_true_iff.1 h
  obtain ⟨hlow, hhigh⟩ := between hcovers
  rcases mapCase_cases runs expansions (code + run.offset).toNat with hentry | ⟨-, ⟨other, hother, hagain, -⟩ | himage⟩
  · rcases Bool.or_eq_true_iff.1 (List.all_eq_true.1 hexpansions _ hentry) with hbelow | habove
    · have hbelow : run.high < (code + run.offset).toNat := Nat.le_of_ble_eq_true hbelow
      omega
    · have habove : (code + run.offset).toNat < run.low := Nat.le_of_ble_eq_true habove
      omega
  · have hnone := not_covers_of_isApart (List.all_eq_true.1 hapart other hother) (of_decide_eq_true hstart) hcovers
    exact nomatch hnone.symm.trans hagain
  · exact himage

theorem isFinal_lowercase :
    (lowercaseRuns.all fun run => run.isFinal lowercaseRuns lowercaseExpansions) = true := by
  decide +kernel

theorem mapCase_of_head {first : Nat} {rest : List Nat}
    (h : mapCase lowercaseRuns lowercaseExpansions code = first :: rest) :
    mapCase lowercaseRuns lowercaseExpansions first = [first] := by
  have hexpansions : ∀ entry ∈ lowercaseExpansions, ∀ first ∈ entry.2.head?,
      mapCase lowercaseRuns lowercaseExpansions first = [first] := by
    decide +kernel
  rcases mapCase_cases lowercaseRuns lowercaseExpansions code with hentry | ⟨-, ⟨run, hrun, hcovers, himage⟩ | himage⟩
  · exact hexpansions _ hentry first (by rw [h]; rfl)
  · obtain ⟨rfl, -⟩ := List.cons.inj (himage.symm.trans h)
    exact CaseRun.mapCase_of_isFinal (List.all_eq_true.1 isFinal_lowercase run hrun) hcovers
  · obtain ⟨rfl, -⟩ := List.cons.inj (himage.symm.trans h)
    exact himage

/-- **What a lower case begins with is its own lower case.** -/
theorem lowercase_of_lowercase {first : Char} (h : (lowercase c).head? = some first)
    (hfirst : isAlphanumeric first = true) : lowercase first = [first] := by
  obtain ⟨rest, hrest⟩ := List.head?_eq_some_iff.1 h
  obtain ⟨code, more, himage, rfl, -⟩ := List.map_eq_cons_iff.1 hrest
  rw [lowercase, toNat_ofNat_of_isAlphanumeric hfirst, mapCase_of_head himage]
  rfl

end SchemaTypes.Text
